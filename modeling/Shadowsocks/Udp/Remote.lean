import Shadowsocks.Lib.Machine
import Shadowsocks.Udp.Datagram
import Shadowsocks.Udp.Session

/-!
# The UDP relay of ss-server

`udprelay.c` compiled with `MODULE_REMOTE`, as a machine. Its events are the callbacks:
a datagram of a client, the end of a query to the resolver, a datagram of a destination
and the idle timer of a session. The resolver gives one address for each host and port;
its answers come in any order, or never.
-/

namespace Shadowsocks.Udp.Remote
set_option autoImplicit false
open Lib

/-- `MAX_UDP_CONN_NUM`. -/
def maxUdpConnNum : Nat := 512

/-- The settings of the process, and its resolver. -/
structure Config (P : Platform) where
  E : Encryptor P
  text : AddrText
  auth : Bool
  resolver : Bytes → Bytes → Inet

/-- What `server_recv_cb` takes out of a datagram. -/
structure Request where
  addrHeader : Bytes
  payload : Bytes
  host : Bytes
  port : Bytes
  dst : Sockaddr

/-- `query_ctx_t`, with the host and port asked for. -/
structure Query where
  srcAddr : Sockaddr
  buf : Bytes
  addrHeader : Bytes
  host : Bytes
  port : Bytes
  remoteCtx : Option Nat

/-- A call of `sendto` on the socket of a session, with the header of the datagram whose
payload is sent. -/
structure Sent where
  addrHeader : Bytes
  payload : Bytes
  dst : Sockaddr

/-- Which of the calls that a callback may make succeed. -/
structure Io where
  socket : Bool := true
  sendto : Bool := true
  query : Bool := true

/-- `server_ctx_t`, the queries under way and the scratch buffers. The last three fields
are ghosts: what was sent to destinations, what was sent back to clients, and the headers
that the clients have used. -/
structure State where
  sessions : Sessions
  auth : Bool
  pending : List Query := []
  encTmp : Buffer := {}
  decTmp : Buffer := {}
  sent : List Sent := []
  replied : List Replied := []
  asked : List (Sockaddr × Bytes) := []

/-- What the sockets, the resolver and the timers bring. -/
inductive Event where
  | serverRecv (src : Sockaddr) (datagram : Bytes) (stale : Nat → UInt8) (io : Io)
  | queryResolve (i : Nat) (found : Bool) (io : Io)
  | remoteRecv (id : Nat) (src : Inet) (datagram : Bytes) (stale : Nat → UInt8) (iv : Bytes)
  | remoteTimeout (id : Nat)

section
variable {P : Platform}

/-- `init_udprelay`. -/
def start (C : Config P) : State where
  sessions := .init maxUdpConnNum
  auth := C.auth

/-! ## `server_recv_cb` -/

/-- The first half: the new `server_ctx->auth`, the scratch buffer, and what the datagram
asks for unless it is dropped. -/
def receive (C : Config P) (auth : Bool) (decTmp : Buffer) (stale : Nat → UInt8) (datagram : Bytes) :
    Except Fault (Bool × Buffer × Option Request) := do
  let buf ← recvFrom stale datagram
  let r ← ssDecryptAll C.E buf auth decTmp maxUdpPacketSize
  if r.ret ≠ 0 then pure (auth, r.tmp, none)
  else do
    let (flag, parsed) ← parseUdprealyHeader C.text r.buf 0 r.buf.len
    match parsed with
    | none => pure (auth || flag, r.tmp, none)
    | some p => do
      let addrHeader ← r.buf.read 0 p.len
      let payload ← r.buf.read p.len (r.buf.len - p.len)
      pure (auth || flag, r.tmp, some { addrHeader, payload, host := p.host, port := p.port, dst := p.storage })

/-- `sendto` to a destination. -/
def State.send (s : State) (addrHeader payload : Bytes) (dst : Sockaddr) : State :=
  { s with sent := s.sent ++ [{ addrHeader, payload, dst }] }

/-- `new_query_ctx` and `resolv_query`. -/
def State.ask (s : State) (src : Sockaddr) (r : Request) (remoteCtx : Option Nat) (io : Io) : State :=
  if io.query then
    { s with pending := s.pending ++
        [{ srcAddr := src, buf := r.payload, addrHeader := r.addrHeader, host := r.host, port := r.port, remoteCtx }] }
  else s

/-- The end of both callbacks for a new session, which is on the heap at `id`: its socket
has been used, and it is kept if that worked. -/
def State.settle (s : State) (id : Nat) (sendto : Bool) : Except Fault State :=
  if sendto then do
    let ctx ← s.sessions.deref id
    let sessions ← s.sessions.insertAndStart id ctx.key
    pure { s with sessions }
  else do
    let sessions ← s.sessions.closeAndFreeRemote id
    pure { s with sessions }

/-- The second half. -/
def route (s : State) (src : Sockaddr) (r : Request) (io : Io) : Except Fault State := do
  let (found, sessions) ← s.sessions.lookupClient r.dst.family src
  let s := { s with sessions }
  match found with
  | some id => do
    let ctx ← s.sessions.deref id
    if ctx.addrHeader ≠ r.addrHeader then
      if r.dst.IsInet then pure (s.send r.addrHeader r.payload r.dst)
      else pure (s.ask src r (some id) io)
    else pure (s.send r.addrHeader r.payload ctx.dstAddr)
  | none =>
    if r.dst.IsInet then
      if io.socket then
        let id := s.sessions.heap.next
        let sessions := s.sessions.newRemote
          { addrHeader := r.addrHeader, srcAddr := src, dstAddr := r.dst, answered := r.addrHeader }
        -- `af` is part of the key; it is set once the datagram was sent
        let sessions := if io.sendto then sessions.modify id fun ctx => { ctx with af := r.dst.family } else sessions
        State.settle ({ s with sessions }.send r.addrHeader r.payload r.dst) id io.sendto
      else pure s
    else pure (s.ask src r none io)

/-- `server_recv_cb`. -/
def serverRecvCb (C : Config P) (s : State) (src : Sockaddr) (datagram : Bytes) (stale : Nat → UInt8) (io : Io) :
    Except Fault State := do
  let (auth, decTmp, request) ← receive C s.auth s.decTmp stale datagram
  let s := { s with auth, decTmp }
  match request with
  | none => pure s
  | some r => route { s with asked := s.asked ++ [(src, r.addrHeader)] } src r io

/-! ## The other callbacks -/

/-- `query_resolve_cb` with an answer. -/
def resolved (s : State) (q : Query) (addr : Sockaddr) (io : Io) : Except Fault State :=
  let (remote, sessions) := match q.remoteCtx with
    | some id => (some id, s.sessions)
    | none => s.sessions.lookup (hashKey afUnspec q.srcAddr)
  let s := { s with sessions }
  let answer (ctx : RemoteCtx) : RemoteCtx := { ctx with dstAddr := addr, answered := q.addrHeader }
  match remote with
  | some id => do
    let _ ← s.sessions.deref id
    pure ({ s with sessions := s.sessions.modify id answer }.send q.addrHeader q.buf addr)
  | none =>
    if io.socket then
      let id := s.sessions.heap.next
      let sessions := (s.sessions.newRemote { addrHeader := q.addrHeader, srcAddr := q.srcAddr }).modify id answer
      State.settle ({ s with sessions }.send q.addrHeader q.buf addr) id io.sendto
    else pure s

/-- `query_resolve_cb`; `found` says that the resolver has an address. -/
def queryResolveCb (C : Config P) (s : State) (i : Nat) (found : Bool) (io : Io) : Except Fault State :=
  match s.pending[i]? with
  | none => pure s
  | some q =>
    let s := { s with pending := s.pending.eraseIdx i }
    if found then resolved s q (C.resolver q.host q.port).addr io else pure s

/-- The packet that `remote_recv_cb` makes of a datagram of `src`, unless it cannot be
encrypted, and its scratch buffer. -/
def reply (C : Config P) (ctx : RemoteCtx) (encTmp : Buffer) (src : Inet) (datagram : Bytes) (stale : Nat → UInt8) (iv : Bytes) :
    Except Fault (Option Bytes × Buffer) := do
  let buf ← recvFrom stale datagram
  let addrHeader :=
    if ctx.af = afInet ∨ ctx.af = afInet6 then constructUdprealyHeader src.addr else ctx.addrHeader
  let buf ← prepend P.junk buf addrHeader
  let r ← ssEncryptAll C.E buf false iv encTmp maxUdpPacketSize
  if r.ret ≠ 0 then pure (none, r.tmp)
  else do
    let packet ← r.buf.read 0 r.buf.len
    pure (some packet, r.tmp)

/-- `remote_recv_cb`: the packet goes to the client whose session it is. -/
def remoteRecvCb (C : Config P) (s : State) (id : Nat) (src : Inet) (datagram : Bytes) (stale : Nat → UInt8) (iv : Bytes) :
    Except Fault State := do
  let ctx ← s.sessions.deref id
  let (packet, encTmp) ← reply C ctx s.encTmp src datagram stale iv
  pure { s with encTmp, replied := s.replied ++ packet.toList.map fun packet => { packet, dst := ctx.srcAddr } }

/-- `remote_timeout_cb`. -/
def remoteTimeoutCb (s : State) (id : Nat) : Except Fault State := do
  let sessions ← s.sessions.remoteTimeoutCb id
  pure { s with sessions }

/-! ## The machine -/

/-- Events that can occur. -/
def enabled (C : Config P) (s : State) : Event → Bool
  | .serverRecv .. => true
  | .queryResolve i .. => decide (i < s.pending.length)
  | .remoteRecv id _ _ _ iv => s.sessions.watched id && decide (iv.length = C.E.ivLen)
  | .remoteTimeout id => s.sessions.watched id

def fire (C : Config P) (s : State) : Event → Except Fault State
  | .serverRecv src datagram stale io => serverRecvCb C s src datagram stale io
  | .queryResolve i found io => queryResolveCb C s i found io
  | .remoteRecv id src datagram stale iv => remoteRecvCb C s id src datagram stale iv
  | .remoteTimeout id => remoteTimeoutCb s id

def machine (C : Config P) : Machine State Event Fault where
  enabled := enabled C
  fire := fire C

/-! ## What a callback can do -/

/-- The outcomes of `route`. -/
inductive Routed (s : State) (src : Sockaddr) (r : Request) (io : Io) : State → Prop where
  | literal (id : Nat) (ctx : RemoteCtx) (sessions : Sessions) (kept : Sessions.Kept maxUdpConnNum s.sessions sessions)
      (here : s.sessions.heap.cell id = some ctx) (key : ctx.key = hashKey r.dst.family src)
      (other : ctx.addrHeader ≠ r.addrHeader) (inet : r.dst.IsInet) :
      Routed s src r io ({ s with sessions }.send r.addrHeader r.payload r.dst)
  | asks (id : Nat) (ctx : RemoteCtx) (sessions : Sessions) (kept : Sessions.Kept maxUdpConnNum s.sessions sessions)
      (here : s.sessions.heap.cell id = some ctx) (key : ctx.key = hashKey r.dst.family src)
      (other : ctx.addrHeader ≠ r.addrHeader) (name : ¬ r.dst.IsInet) :
      Routed s src r io ({ s with sessions }.ask src r (some id) io)
  | again (id : Nat) (ctx : RemoteCtx) (sessions : Sessions) (kept : Sessions.Kept maxUdpConnNum s.sessions sessions)
      (here : s.sessions.heap.cell id = some ctx) (key : ctx.key = hashKey r.dst.family src)
      (same : ctx.addrHeader = r.addrHeader) :
      Routed s src r io ({ s with sessions }.send r.addrHeader r.payload ctx.dstAddr)
  | noSocket : Routed s src r io s
  | opened (sessions : Sessions) (inet : r.dst.IsInet) (fresh : hashKey r.dst.family src ∉ s.sessions.cache.keys)
      (ready : io.socket = true ∧ io.sendto = true)
      (entered : Sessions.Entered maxUdpConnNum s.sessions
        { af := r.dst.family, addrHeader := r.addrHeader, srcAddr := src, dstAddr := r.dst, answered := r.addrHeader } sessions) :
      Routed s src r io ({ s with sessions }.send r.addrHeader r.payload r.dst)
  | unsent (sessions : Sessions) (inet : r.dst.IsInet) (kept : Sessions.Kept maxUdpConnNum s.sessions sessions) :
      Routed s src r io ({ s with sessions }.send r.addrHeader r.payload r.dst)
  | queries (name : ¬ r.dst.IsInet) (fresh : hashKey r.dst.family src ∉ s.sessions.cache.keys) :
      Routed s src r io (s.ask src r none io)

/-- The outcomes of an answer of the resolver. -/
inductive Resolved (s : State) (q : Query) (addr : Sockaddr) (io : Io) : State → Prop where
  | updated (id : Nat) (ctx : RemoteCtx) (sessions : Sessions) (kept : Sessions.Kept maxUdpConnNum s.sessions sessions)
      (here : s.sessions.heap.cell id = some ctx)
      (whose : q.remoteCtx = some id ∨ q.remoteCtx = none ∧ ctx.key = hashKey afUnspec q.srcAddr) :
      Resolved s q addr io
        ({ s with sessions := sessions.modify id fun ctx => { ctx with dstAddr := addr, answered := q.addrHeader } }.send
          q.addrHeader q.buf addr)
  | noSocket : Resolved s q addr io s
  | opened (sessions : Sessions) (fresh : q.remoteCtx = none ∧ hashKey afUnspec q.srcAddr ∉ s.sessions.cache.keys)
      (ready : io.socket = true ∧ io.sendto = true)
      (entered : Sessions.Entered maxUdpConnNum s.sessions
        { addrHeader := q.addrHeader, srcAddr := q.srcAddr, dstAddr := addr, answered := q.addrHeader } sessions) :
      Resolved s q addr io ({ s with sessions }.send q.addrHeader q.buf addr)
  | unsent (sessions : Sessions) (kept : Sessions.Kept maxUdpConnNum s.sessions sessions) :
      Resolved s q addr io ({ s with sessions }.send q.addrHeader q.buf addr)

section
variable {s s' : State}

/-- A session is entered into the table once its packet is sent. -/
theorem settle_sent (sound : s.sessions.Sound maxUdpConnNum) (r : RemoteCtx) (fresh : r.key ∉ s.sessions.cache.keys)
    (done : State.settle { s with sessions := s.sessions.newRemote r } s.sessions.heap.next true = .ok s') :
    ∃ sessions, Sessions.Entered maxUdpConnNum s.sessions r sessions ∧ s' = { s with sessions } := by
  obtain ⟨sessions, admitted, entered⟩ := sound.enter (by decide) fresh
  obtain ⟨ctx, here, done⟩ := bind_eq_ok.mp done
  cases (Sessions.deref_eq_ok.mp here).symm.trans Heap.cell_new_self
  obtain ⟨sessions', admitted', done⟩ := bind_eq_ok.mp done
  cases admitted.symm.trans admitted'
  cases done
  exact ⟨sessions, entered, rfl⟩

/-- A session whose packet is not sent is closed. -/
theorem settle_unsent (sound : s.sessions.Sound maxUdpConnNum) {r : RemoteCtx}
    (done : State.settle { s with sessions := s.sessions.newRemote r } s.sessions.heap.next false = .ok s') :
    ∃ sessions, Sessions.Kept maxUdpConnNum s.sessions sessions ∧ s' = { s with sessions } := by
  obtain ⟨sessions, freed, kept⟩ := sound.dropped r
  obtain ⟨sessions', freed', done⟩ := bind_eq_ok.mp done
  cases freed.symm.trans freed'
  cases done
  exact ⟨sessions, kept, rfl⟩

/-- The ways in which a request may go on. -/
theorem route_cases (sound : s.sessions.Sound maxUdpConnNum) {src : Sockaddr} {r : Request} {io : Io}
    (done : route s src r io = .ok s') : Routed s src r io s' := by
  obtain ⟨kept, hit, miss⟩ := sound.lookup (hashKey r.dst.family src)
  rw [route, sound.lookupClient, ok_bind] at done
  cases looked : s.sessions.lookup (hashKey r.dst.family src) with
  | mk found sessions =>
    rw [looked] at kept hit miss done
    dsimp only at kept hit miss done
    cases found with
    | some id =>
      obtain ⟨ctx, here, key⟩ := hit id rfl
      dsimp only at done
      rw [Sessions.deref_ok (by rw [kept.cell, here]), ok_bind] at done
      split at done
      · rename_i other
        split at done
        · rename_i inet
          cases done
          exact .literal id ctx sessions kept here key other inet
        · rename_i name
          cases done
          exact .asks id ctx sessions kept here key other name
      · rename_i same
        cases done
        exact .again id ctx sessions kept here key (Decidable.not_not.mp same)
    | none =>
      obtain ⟨fresh, rfl⟩ := miss rfl
      dsimp only at done
      split at done
      · rename_i inet
        split at done
        · rename_i socket
          cases sendto : io.sendto with
          | true =>
            rw [sendto, if_pos rfl, Sessions.modify, Sessions.newRemote] at done
            dsimp only at done
            rw [Heap.modify_new] at done
            obtain ⟨sessions, entered, rfl⟩ := settle_sent (s := s.send r.addrHeader r.payload r.dst) sound
              { af := r.dst.family, addrHeader := r.addrHeader, srcAddr := src, dstAddr := r.dst, answered := r.addrHeader }
              fresh done
            exact .opened sessions inet fresh ⟨socket, sendto⟩ entered
          | false =>
            rw [sendto] at done
            obtain ⟨sessions, kept, rfl⟩ := settle_unsent (s := s.send r.addrHeader r.payload r.dst) sound done
            exact .unsent sessions inet kept
        · cases done
          exact .noSocket
      · rename_i name
        cases done
        exact .queries name fresh

/-- The same for a name that has been answered. A session that is there gets the address, whether
the query kept it or the table has it; otherwise a new one is made, and kept if its packet is
sent. -/
theorem resolved_cases (sound : s.sessions.Sound maxUdpConnNum) {q : Query} {addr : Sockaddr} {io : Io}
    (done : resolved s q addr io = .ok s') : Resolved s q addr io s' := by
  have hit : ∀ (id : Nat) (sessions : Sessions), Sessions.Kept maxUdpConnNum s.sessions sessions →
      (∀ ctx, s.sessions.heap.cell id = some ctx →
        q.remoteCtx = some id ∨ q.remoteCtx = none ∧ ctx.key = hashKey afUnspec q.srcAddr) →
      (do
        let _ ← sessions.deref id
        pure ({ s with sessions := sessions.modify id fun ctx => { ctx with dstAddr := addr, answered := q.addrHeader } }.send
          q.addrHeader q.buf addr) : Except Fault State) = .ok s' → Resolved s q addr io s' := by
    intro id sessions kept whose done
    obtain ⟨ctx, here, done⟩ := bind_eq_ok.mp done
    cases done
    have here := Sessions.deref_eq_ok.mp here
    rw [kept.cell] at here
    exact .updated id ctx sessions kept here (whose ctx here)
  unfold resolved at done
  cases given : q.remoteCtx with
  | some id =>
    rw [given] at done
    exact hit id s.sessions sound.kept (fun _ _ => .inl given) done
  | none =>
    obtain ⟨kept, known, miss⟩ := sound.lookup (hashKey afUnspec q.srcAddr)
    rw [given] at done
    dsimp only at done
    cases looked : s.sessions.lookup (hashKey afUnspec q.srcAddr) with
    | mk found sessions =>
      rw [looked] at kept known miss done
      dsimp only at kept known miss done
      cases found with
      | some id =>
        obtain ⟨ctx, here, key⟩ := known id rfl
        exact hit id sessions kept (fun ctx' here' => by cases here.symm.trans here'; exact .inr ⟨given, key⟩) done
      | none =>
        obtain ⟨fresh, rfl⟩ := miss rfl
        dsimp only at done
        split at done
        · rename_i socket
          rw [Sessions.modify, Sessions.newRemote] at done
          dsimp only at done
          rw [Heap.modify_new] at done
          cases sendto : io.sendto with
          | true =>
            rw [sendto] at done
            obtain ⟨sessions, entered, rfl⟩ := settle_sent (s := s.send q.addrHeader q.buf addr) sound
              { addrHeader := q.addrHeader, srcAddr := q.srcAddr, dstAddr := addr, answered := q.addrHeader } fresh done
            exact .opened sessions ⟨given, fresh⟩ ⟨socket, sendto⟩ entered
          | false =>
            rw [sendto] at done
            obtain ⟨sessions, kept, rfl⟩ := settle_unsent (s := s.send q.addrHeader q.buf addr) sound done
            exact .unsent sessions kept
        · cases done
          exact .noSocket

end

/-- The outcomes of an event that does not fail. -/
inductive Fired (C : Config P) (s : State) : Event → State → Prop where
  | dropped (src : Sockaddr) (datagram : Bytes) (stale : Nat → UInt8) (io : Io) (auth : Bool) (decTmp : Buffer)
      (received : receive C s.auth s.decTmp stale datagram = .ok (auth, decTmp, none)) :
      Fired C s (.serverRecv src datagram stale io) { s with auth, decTmp }
  | routed (src : Sockaddr) (datagram : Bytes) (stale : Nat → UInt8) (io : Io) (auth : Bool) (decTmp : Buffer) (r : Request)
      (received : receive C s.auth s.decTmp stale datagram = .ok (auth, decTmp, some r)) (s' : State)
      (outcome : Routed { s with auth, decTmp, asked := s.asked ++ [(src, r.addrHeader)] } src r io s') :
      Fired C s (.serverRecv src datagram stale io) s'
  | unanswered (i : Nat) (io : Io) (q : Query) (pending : s.pending[i]? = some q) :
      Fired C s (.queryResolve i false io) { s with pending := s.pending.eraseIdx i }
  | answered (i : Nat) (io : Io) (q : Query) (pending : s.pending[i]? = some q) (s' : State)
      (outcome : Resolved { s with pending := s.pending.eraseIdx i } q (C.resolver q.host q.port).addr io s') :
      Fired C s (.queryResolve i true io) s'
  | replied (id : Nat) (src : Inet) (datagram : Bytes) (stale : Nat → UInt8) (iv : Bytes) (ctx : RemoteCtx)
      (here : s.sessions.heap.cell id = some ctx) (packet : Option Bytes) (encTmp : Buffer)
      (made : reply C ctx s.encTmp src datagram stale iv = .ok (packet, encTmp)) :
      Fired C s (.remoteRecv id src datagram stale iv)
        { s with encTmp, replied := s.replied ++ packet.toList.map fun packet => { packet, dst := ctx.srcAddr } }
  | expired (id : Nat) (ctx : RemoteCtx) (here : s.sessions.heap.cell id = some ctx) (sessions : Sessions)
      (sound : sessions.Sound maxUdpConnNum) (heap : sessions.heap = s.sessions.heap.free id) :
      Fired C s (.remoteTimeout id) { s with sessions }

section
variable {C : Config P} {s s' : State} {e : Event}

/-- The same for any event. -/
theorem fire_cases (sound : s.sessions.Sound maxUdpConnNum) (on : enabled C s e = true) (done : fire C s e = .ok s') :
    Fired C s e s' := by
  cases e with
  | serverRecv src datagram stale io =>
    obtain ⟨⟨auth, decTmp, request⟩, received, done⟩ := bind_eq_ok.mp done
    cases request with
    | none =>
      cases done
      exact .dropped src datagram stale io auth decTmp received
    | some r =>
      exact .routed src datagram stale io auth decTmp r received s'
        (route_cases (s := { s with auth, decTmp, asked := s.asked ++ [(src, r.addrHeader)] }) sound done)
  | queryResolve i found io =>
    have within : i < s.pending.length := of_decide_eq_true on
    have pending := List.getElem?_eq_getElem within
    rw [fire, queryResolveCb, pending] at done
    cases found with
    | false =>
      cases done
      exact .unanswered i io _ pending
    | true =>
      exact .answered i io _ pending s' (resolved_cases (s := { s with pending := s.pending.eraseIdx i }) sound done)
  | remoteRecv id src datagram stale iv =>
    obtain ⟨ctx, here, done⟩ := bind_eq_ok.mp done
    obtain ⟨⟨packet, encTmp⟩, made, done⟩ := bind_eq_ok.mp done
    cases done
    exact .replied id src datagram stale iv ctx (Sessions.deref_eq_ok.mp here) packet encTmp made
  | remoteTimeout id =>
    obtain ⟨ctx, here, -⟩ := Sessions.watched_iff.mp on
    obtain ⟨sessions, expired, sound', heap⟩ := sound.timeout here
    obtain ⟨sessions', expired', done⟩ := bind_eq_ok.mp done
    cases expired.symm.trans expired'
    cases done
    exact .expired id ctx here sessions sound' heap

/-- None of them spoils the sessions. -/
theorem Routed.sound {src : Sockaddr} {r : Request} {io : Io} (routed : Routed s src r io s')
    (sound : s.sessions.Sound maxUdpConnNum) : s'.sessions.Sound maxUdpConnNum := by
  cases routed with
  | literal _ _ _ kept => exact kept.sound
  | asks _ _ sessions kept =>
    unfold State.ask
    split
    · exact kept.sound
    · exact kept.sound
  | again _ _ _ kept => exact kept.sound
  | noSocket => exact sound
  | opened _ _ _ _ entered => exact entered.sound
  | unsent _ _ kept => exact kept.sound
  | queries =>
    unfold State.ask
    split
    · exact sound
    · exact sound

theorem Resolved.sound {q : Query} {addr : Sockaddr} {io : Io} (resolved : Resolved s q addr io s')
    (sound : s.sessions.Sound maxUdpConnNum) : s'.sessions.Sound maxUdpConnNum := by
  cases resolved with
  | updated id _ _ kept => exact kept.sound.modify id (fun _ => rfl) fun _ => rfl
  | noSocket => exact sound
  | opened _ _ _ entered => exact entered.sound
  | unsent _ kept => exact kept.sound

theorem Fired.sound (fired : Fired C s e s') (sound : s.sessions.Sound maxUdpConnNum) : s'.sessions.Sound maxUdpConnNum := by
  cases fired with
  | dropped => exact sound
  | routed _ _ _ _ _ _ _ _ _ outcome => exact outcome.sound sound
  | unanswered => exact sound
  | answered _ _ _ _ _ outcome => exact outcome.sound sound
  | replied => exact sound
  | expired _ _ _ _ sound' => exact sound'

/-- The sessions are sound in every run. -/
theorem reach_sound {allowed : State → Event → Prop} (run : (machine C).Reach allowed (start C) s) :
    s.sessions.Sound maxUdpConnNum :=
  run.invariant (fun s => s.sessions.Sound maxUdpConnNum) (Sessions.sound_init _)
    fun _ _ _ sound on _ done => (fire_cases sound on done).sound sound

end

/-! ## What a datagram asks for -/

/-- The request in a packet, if its header is valid. -/
def readRequest (text : AddrText) (packet : Bytes) : Option Request :=
  match parseUdprealyHeader text { len := packet.length, array := packet ++ [0, 0] } 0 packet.length with
  | .ok (_, some p) =>
    some { addrHeader := packet.take p.len, payload := packet.drop p.len, host := p.host, port := p.port, dst := p.storage }
  | _ => none

/-- What the relay makes of a header and a payload. -/
def headerRequest (text : AddrText) (t : UInt8) (h : Header) (payload : Bytes) : Request where
  addrHeader := t :: (h.addr.body ++ h.port)
  payload
  host := (headerParsed text h).host
  port := h.port
  dst := (headerParsed text h).storage

/-- A header that was written is read back. -/
theorem readRequest_header (text : AddrText) {t : UInt8} {h : Header} (payload : Bytes) (valid : h.Valid)
    (typ : t &&& 0xf = h.addr.atyp) :
    readRequest text (t :: (h.addr.body ++ (h.port ++ payload))) = some (headerRequest text t h payload) := by
  have len := headerParsed_len text valid
  have front : (t :: (h.addr.body ++ h.port)).length = (headerParsed text h).len := by
    simp only [List.length_cons, List.length_append, valid.2, len]
    omega
  have whole : t :: (h.addr.body ++ (h.port ++ payload)) = (t :: (h.addr.body ++ h.port)) ++ payload := by simp
  rw [readRequest, whole]
  have head : window ((t :: (h.addr.body ++ h.port)) ++ payload ++ [0, 0]) 0 (headerParsed text h).len =
      t :: (h.addr.body ++ h.port) := by
    rw [List.append_assoc, window_append_left (by omega), ← front, window_zero_length]
  rw [parse_header (t := t) (h := h) ⟨valid, typ, head⟩ (by rw [List.length_append]; omega)
    (by simp only [List.length_append]; omega)]
  dsimp only
  rw [← front, List.take_left, List.drop_left]
  obtain ⟨addr, port⟩ := h
  cases addr <;> rfl

theorem readRequest_nil (text : AddrText) : readRequest text [] = none := by
  obtain ⟨t, parsed, -, eq⟩ := parse_total text { len := 0, array := [0, 0] } 0 0 (by decide) (by decide)
  cases parse_nothing eq
  rw [readRequest]
  simp only [List.length_nil, List.nil_append, eq]

section
variable {C : Config P} {auth auth' : Bool} {decTmp decTmp' : Buffer} {stale : Nat → UInt8} {datagram packet : Bytes}

/-- Whatever is taken begins with a header that was written. -/
theorem receive_some {r : Request} (received : receive C auth decTmp stale datagram = .ok (auth', decTmp', some r)) :
    ∃ t h, Wrote t h r.addrHeader ∧ r = headerRequest C.text t h r.payload := by
  obtain ⟨buf, -, received⟩ := bind_eq_ok.mp received
  obtain ⟨d, -, received⟩ := bind_eq_ok.mp received
  split at received
  · cases received
  · obtain ⟨⟨flag, parsed⟩, eq, received⟩ := bind_eq_ok.mp received
    cases parsed with
    | none => cases received
    | some p =>
      obtain ⟨addrHeader, readHeader, received⟩ := bind_eq_ok.mp received
      obtain ⟨payload, -, received⟩ := bind_eq_ok.mp received
      cases received
      obtain ⟨-, rfl⟩ := Buffer.read_eq_ok.mp readHeader
      obtain ⟨t, h, wrote, rfl, -⟩ := parse_some eq
      refine ⟨t, h, wrote, ?_⟩
      dsimp only
      rw [wrote.bytes, headerRequest]
      obtain ⟨addr, port⟩ := h
      cases addr <;> rfl

/-- A datagram that cannot be opened is dropped. -/
theorem receive_closed (decTmp : Buffer) (stale : Nat → UInt8) (lawful : P.evp.Lawful) (closed : openPacket C.E auth (datagram.take maxUdpPacketSize) = none) :
    ∃ decTmp', receive C auth decTmp stale datagram = .ok (auth, decTmp', none) := by
  obtain ⟨buf, r, received, decrypted, -, failed, -⟩ := openRecv_spec C.E lawful auth decTmp stale datagram
  refine ⟨r.tmp, ?_⟩
  rw [receive, received, ok_bind, decrypted, ok_bind, failed closed]
  rfl

/-- A datagram that is opened is parsed. -/
theorem receive_opened (decTmp : Buffer) (stale : Nat → UInt8) (lawful : P.evp.Lawful) (opened : openPacket C.E auth (datagram.take maxUdpPacketSize) = some packet)
    (some_ : packet ≠ []) :
    ∃ decTmp', receive C auth decTmp stale datagram = .ok (auth || flagged packet, decTmp', readRequest C.text packet) ∧
      (C.E.method = .table → decTmp' = decTmp) := by
  obtain ⟨buf, r, received, decrypted, taken, -, same⟩ := openRecv_spec C.E lawful auth decTmp stale datagram
  obtain ⟨ret, holds, size⟩ := taken packet opened
  simp only [maxUdpPacketSize] at size
  have len := holds.len
  have canonical : ({ len := packet.length, array := packet ++ [0, 0] } : Buffer).Holds packet := by
    refine ⟨by simp [Buffer.Fits], ?_⟩
    rw [Buffer.bytes, window_append_left (by dsimp only; omega), window_zero_length]
  obtain ⟨t, parsed, first, eq⟩ := parse_total C.text r.buf 0 packet.length (by omega) (by have := holds.room; omega)
  have flag : flagged packet = (t &&& 0x10 != 0) := by
    obtain ⟨b, rest, rfl⟩ := List.exists_cons_of_ne_nil some_
    rw [holds.window (by simp)] at first
    obtain ⟨rfl, -⟩ := List.cons.inj first
    rfl
  have room := holds.room
  have here : parseUdprealyHeader C.text { len := packet.length, array := packet ++ [0, 0] } 0 packet.length =
      parseUdprealyHeader C.text r.buf 0 packet.length := by
    refine parse_congr C.text (List.length_pos_iff.mpr some_) ?_ (by simp) (by simp) (by omega) (by omega)
    rw [canonical.window (by omega), holds.window (by omega)]
  refine ⟨r.tmp, ?_, same⟩
  rw [receive, received, ok_bind, decrypted, ok_bind, if_neg (by simp [ret]), len, eq, ok_bind, flag, readRequest, here, eq]
  cases parsed with
  | none => rfl
  | some p =>
    obtain ⟨t', h, -, -, -, inside, -⟩ := parse_some eq
    have room := holds.room
    have whole : window r.buf.array 0 packet.length = packet := len ▸ holds.bytes
    dsimp only
    rw [Buffer.read_ok (by omega), ok_bind, Buffer.read_ok (by omega), ok_bind, holds.window (by omega),
      holds.window (by omega), ← take_eq_window]
    have rest : window packet p.len (packet.length - p.len) = packet.drop p.len := by
      rw [window, List.take_of_length_le (by simp)]
    rw [rest]
    rfl

/-- An empty packet is never taken, whatever is read of it. -/
theorem receive_empty (decTmp : Buffer) (stale : Nat → UInt8) (lawful : P.evp.Lawful) (opened : openPacket C.E auth (datagram.take maxUdpPacketSize) = some []) :
    ∃ flag decTmp', receive C auth decTmp stale datagram = .ok (flag, decTmp', none) := by
  obtain ⟨buf, r, received, decrypted, taken, -, -⟩ := openRecv_spec C.E lawful auth decTmp stale datagram
  obtain ⟨ret, holds, size⟩ := taken [] opened
  simp only [maxUdpPacketSize] at size
  have len := holds.len
  obtain ⟨t, parsed, -, eq⟩ := parse_total C.text r.buf 0 0 (by omega) (by omega)
  refine ⟨auth || t &&& 0x10 != 0, r.tmp, ?_⟩
  rw [receive, received, ok_bind, decrypted, ok_bind, if_neg (by simp [ret]), len, List.length_nil, eq, ok_bind]
  cases parse_nothing eq
  rfl

end

end

end Shadowsocks.Udp.Remote
