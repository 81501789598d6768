import Shadowsocks.Tun2socks.Delivery
import Shadowsocks.Udp.Auth
import Shadowsocks.Udp.Reply

/-!
# A datagram and its reply, from end to end

A packet of the device goes through tun2socks, ss-local and ss-server, and what its
destination sends back goes the same way in the other direction. The header that each of
them writes is the one that the next one reads.

`Route` says where a datagram has passed: through a session of each of the three, each of which
knows the address of the one before. `Returns` is the way back over the same sessions.
-/

namespace Shadowsocks
set_option autoImplicit false
open Lib

/-! ## Addresses as the three programs write them -/

namespace Tun2socks

/-- The address as the header of a request. -/
def BAddr.header : BAddr → Header
  | .ipv4 addr => ⟨.ipv4 (be32 addr.ip.toNat), be16 addr.port.toNat⟩
  | .ipv6 ip port => ⟨.ipv6 ip.toList, be16 port.toNat⟩

/-- The bytes of the header, without a flag. -/
def BAddr.headerBytes (addr : BAddr) : Bytes := addr.header.addr.atyp :: (addr.header.addr.body ++ addr.header.port)

/-- The address and the port in network order. -/
def BAddr.endpoint : BAddr → Ip × Bytes
  | .ipv4 addr => (.v4 (be32 addr.ip.toNat), be16 addr.port.toNat)
  | .ipv6 ip port => (.v6 ip.toList, be16 port.toNat)

section
variable (addr : BAddr)

/-- The header of `connection_send` is one that the relays read. -/
theorem BAddr.wrote (t : UInt8) (typ : t &&& 0xf = addr.header.addr.atyp) :
    Udp.Wrote t addr.header (t :: (addr.header.addr.body ++ addr.header.port)) := by
  refine ⟨?_, typ, rfl⟩
  cases addr with
  | ipv4 addr => exact ⟨rfl, rfl⟩
  | ipv6 ip port => exact ⟨by simp [header, Address.Valid], rfl⟩

theorem BAddr.wrote_headerBytes : Udp.Wrote addr.header.addr.atyp addr.header addr.headerBytes :=
  addr.wrote _ (by cases addr with
    | ipv4 => exact (show (1 : UInt8) &&& 0xf = 1 by decide)
    | ipv6 => exact (show (4 : UInt8) &&& 0xf = 4 by decide))

/-- The type of an address has no flag of one-time authentication. -/
theorem BAddr.flagged_headerBytes : flagged addr.headerBytes = false := by
  cases addr with
  | ipv4 => exact (show ((1 : UInt8) &&& 0x10 != 0) = false by decide)
  | ipv6 => exact (show ((4 : UInt8) &&& 0x10 != 0) = false by decide)

/-- `RSV` and `FRAG` are in front of the header. -/
theorem socksUdpHeader_eq : socksUdpHeader addr = [0, 0, 0] ++ addr.headerBytes := by
  cases addr <;> rfl

/-- ss-server sends to the address in the header. -/
theorem BAddr.endpoint_headerParsed (text : AddrText) : (Udp.headerParsed text addr.header).storage.endpoint = some addr.endpoint := by
  cases addr with
  | ipv4 addr => exact Udp.Sockaddr.endpoint_inet rfl rfl
  | ipv6 ip port => exact Udp.Sockaddr.endpoint_inet6 (by simp) rfl

/-- What ss-server puts in front of a reply of the address is the header again. -/
theorem BAddr.construct_eq {D : Udp.Sockaddr} (same : D.endpoint = some addr.endpoint) :
    Udp.constructUdprealyHeader D = addr.headerBytes := by
  unfold Udp.Sockaddr.endpoint at same
  unfold Udp.constructUdprealyHeader
  cases addr with
  | ipv4 addr =>
    split at same
    · rename_i four
      rw [if_pos four]
      simp only [endpoint, Option.some.injEq, Prod.mk.injEq, Ip.v4.injEq] at same
      rw [same.1, same.2]
      rfl
    · split at same <;> simp [endpoint] at same
  | ipv6 ip port =>
    split at same
    · simp [endpoint] at same
    · rename_i other
      split at same
      · rename_i six
        rw [if_neg other, if_pos six]
        simp only [endpoint, Option.some.injEq, Prod.mk.injEq, Ip.v6.injEq] at same
        rw [same.1, same.2]
        rfl
      · cases same

end

/-- How long the header in front of a payload is. -/
theorem length_headerBytes (addr : BAddr) : addr.headerBytes.length + 3 = (socksUdpHeader addr).length := by
  rw [socksUdpHeader_eq, List.length_append, Nat.add_comm]
  rfl

/-! ## The device -/

/-- The device gives a packet; its jobs are executed and the socket sends what they queued. -/
def deviceEvents (request : Request) (free : Nat) : List Event :=
  [.packet request none (some free), .job (some free), .job (some free), .send 0 true]

/-- A packet is queued with its header. -/
theorem connectionSend_queued {s : State} {id : Nat} {con : Connection} (free : Nat) (request : Request) (here : s.heap.cell id = some con) :
    ∃ s', s.connectionSend id request (some free) = .ok s' ∧ s'.jobs = s.jobs ∧ s'.heap.cell id =
      some { con with queue := con.queue ++ [⟨request, socksUdpHeader con.conaddr.remoteAddr ++ request.data⟩] } := by
  refine ⟨{ s with
    heap := s.heap.modify id fun c => { c with queue := c.queue ++ [⟨request, socksUdpHeader con.conaddr.remoteAddr ++ request.data⟩] }
    queued := s.queued ++ [(con.conaddr, ⟨request, socksUdpHeader con.conaddr.remoteAddr ++ request.data⟩)] }, ?_, rfl, ?_⟩
  · rw [State.connectionSend, State.deref_eq_ok.mpr here, ok_bind]
    rfl
  · rw [Heap.cell_modify_self, here]
    rfl

/-- A fresh client sends the payload of the first packet, with a header for its address. -/
theorem deviceEvents_run (T : Config) (request : Request) {free : Nat} (wide : T.udpMtu ≤ free) :
    ∃ s, (machine T).run {} (deviceEvents request free) = some (.ok s) ∧ s.heap.cell 0 = some
      { conaddr := request.pair, sent := [⟨request, socksUdpHeader request.pair.remoteAddr ++ request.data⟩] } := by
  have limit : (0 : Nat) ≠ T.limit := by
    have positive := T.positive
    unfold Config.limit
    split <;> omega
  obtain ⟨s₁, packet, jobs₁, buf₁, cell₁⟩ : ∃ s, (machine T).fire {} (.packet request none (some free)) = .ok s ∧
      s.jobs = [.firstJob 0, .deviceDone] ∧ s.deviceBuf = some request ∧ s.heap.cell 0 = some { conaddr := request.pair } := by
    have absent : (({} : State).deviceRead request).oldConnection T request.pair = .ok (none, ({} : State).deviceRead request) := by
      rw [State.oldConnection]
      exact if_neg limit
    refine ⟨((({} : State).deviceRead request).connectionInit request.pair none).2.use request.pair, ?_, rfl, rfl, rfl⟩
    change (({} : State).deviceRead request).submitPacket T request none (some free) = _
    rw [State.submitPacket, absent]
    rfl
  obtain ⟨s₂, sends, jobs₂, cell₂⟩ := connectionSend_queued (s := { s₁ with jobs := [.deviceDone] }) free request cell₁
  have first : (machine T).fire s₁ (.job (some free)) = .ok s₂ := by
    change s₁.executeJob (some free) = _
    rw [State.executeJob, jobs₁]
    dsimp only
    rw [State.connectionFirstJobHandler, show Lib.deref s₁.deviceBuf = .ok request by rw [buf₁]; rfl, ok_bind, sends]
  have last : (machine T).fire s₂ (.job (some free)) = .ok { s₂ with jobs := [] } := by
    change s₂.executeJob (some free) = _
    rw [State.executeJob, jobs₂]
  obtain ⟨s₄, send, cell₄⟩ : ∃ s, (machine T).fire { s₂ with jobs := [] } (.send 0 true) = .ok s ∧ s.heap.cell 0 = some
      { conaddr := request.pair, sent := [⟨request, socksUdpHeader request.pair.remoteAddr ++ request.data⟩] } := by
    refine ⟨{ s₂ with
      jobs := []
      heap := s₂.heap.modify 0 fun con =>
        { con with queue := [], sent := con.sent ++ [⟨request, socksUdpHeader request.pair.remoteAddr ++ request.data⟩] } }, ?_, ?_⟩
    · change State.sendFirst _ 0 true = _
      rw [State.sendFirst, State.deref_eq_ok (s := { s₂ with jobs := [] }).mpr cell₂]
      rfl
    · rw [Heap.cell_modify_self, cell₂]
      rfl
  refine ⟨s₄, ?_, cell₄⟩
  rw [deviceEvents, Machine.run_fire _ (by simp [machine, wide]) packet, Machine.run_fire _ (by simp [machine, jobs₁, wide]) first,
    Machine.run_fire _ (by simp [machine, jobs₂, wide]) last, Machine.run_fire _ (by simp [machine, cell₂]) send, Machine.run]

/-- A datagram of ss-local for the pair of a connection is handed over. -/
theorem dgramHandlerReceived_ok {T : Config} {s : State} {id : Nat} {con : Connection} (here : s.heap.cell id = some con)
    {reply : Bytes} (request : Request) (fits : (socksUdpHeader con.conaddr.remoteAddr).length + reply.length ≤ T.udpMtu) :
    s.dgramHandlerReceived T id ((socksUdpHeader con.conaddr.remoteAddr ++ reply).take T.udpMtu) request reply =
      .ok { s with delivered := s.delivered ++ [⟨con.conaddr.localAddr, con.conaddr.remoteAddr, reply, request, reply⟩] } := by
  rw [List.take_of_length_le (by rw [List.length_append]; exact fits), State.dgramHandlerReceived, State.deref_eq_ok.mpr here, ok_bind,
    parseReply_header]
  dsimp only
  rw [BAddr.compare_iff.mpr rfl, if_neg (by simp), if_neg (by omega)]
  rfl

end Tun2socks

namespace Udp

section
variable {P : Platform}

/-- What ss-local makes of a packet of ss-server whose header is an address. -/
theorem Local.answer_ok (L : Local.Config P) (lawful : P.evp.Lawful) (front : L.front = .socks) {t : UInt8} {h : Header}
    {bs : Bytes} (wrote : Wrote t h bs) (reply : Bytes) {packet : Bytes} (opened : openPacket L.E false packet = some (bs ++ reply))
    (fits : packet.length ≤ maxUdpPacketSize) (small : bs.length + reply.length ≤ maxUdpPacketSize) (decTmp : Buffer) (stale : Nat → UInt8) :
    ∃ decTmp', Local.answer L decTmp packet stale = .ok (some ([0, 0, 0] ++ (bs ++ reply), none), decTmp') := by
  obtain ⟨buf, received, holds, -⟩ := recvFrom_spec stale packet
  rw [List.take_of_length_le fits] at holds
  simp only [maxUdpPacketSize] at fits small
  obtain ⟨buf', decTmp', read, holds', -⟩ := Remote.openReply_header L.text lawful holds (by omega) wrote opened decTmp
  obtain ⟨buf'', framed, holds''⟩ := prepend_spec P.junk holds' [0, 0, 0]
    (by rw [List.length_append]; simp only [List.length_cons, List.length_nil]; omega)
  refine ⟨decTmp', ?_⟩
  rw [Local.answer, received, ok_bind, read, ok_bind]
  dsimp only
  rw [Local.construct, front]
  dsimp only
  rw [framed, ok_bind, pure_eq_ok, ok_bind]
  dsimp only
  rw [holds''.readAll, ok_bind]
  rfl

end

end Udp

/-! ## There and back -/

namespace Tun2socks

section
variable {P : Platform}

/-- The datagrams with a payload, and a tag if there is one, fit into the MTU and the buffers. -/
structure Fits (T : Config) (E : Encryptor P) (auth : Bool) (remoteAddr : BAddr) (payload : Bytes) : Prop where
  device : (socksUdpHeader remoteAddr).length + payload.length ≤ T.udpMtu
  datagram : (socksUdpHeader remoteAddr).length + payload.length ≤ Udp.maxUdpPacketSize
  packet : packetSize E auth (remoteAddr.headerBytes.length + payload.length) ≤ Udp.maxUdpPacketSize

/-- The sessions of a pair are up in the three programs: the connection of tun2socks, whose socket has the address `lsrc`, the
session of ss-local for that socket, whose own one has the address `rsrc`, and the session of ss-server for that. -/
structure Route (pair : ConAddr) (lsrc rsrc : Udp.Sockaddr) (s : State) (l : Udp.Local.State) (r : Udp.Remote.State) : Prop where
  connection : ∃ con, s.heap.cell 0 = some con ∧ con.conaddr = pair
  local_ : ∃ ctx, l.sessions.heap.cell 0 = some ctx ∧ ctx.started = true ∧ ctx.srcAddr = lsrc
  server : ∃ ctx, r.sessions.heap.cell 0 = some ctx ∧ ctx.started = true ∧ ctx.srcAddr = rsrc ∧
    (ctx.af = Udp.afInet ∨ ctx.af = Udp.afInet6)

/-- Whatever the remote address of a pair sends back, as often as it does, ss-server sends it on to the socket of ss-local, ss-local
to the socket of the connection, and the connection hands it over to the pair, byte for byte. The sessions stay up. -/
def Returns (T : Config) (L : Udp.Local.Config P) (S : Udp.Remote.Config P) (pair : ConAddr) (lsrc rsrc : Udp.Sockaddr) : Prop :=
  ∀ s l r, Route pair lsrc rsrc s l r →
    ∀ (D : Udp.Inet) (reply : Bytes), D.addr.endpoint = some pair.remoteAddr.endpoint → Fits T L.E false pair.remoteAddr reply →
    ∀ stale (iv : Bytes), iv.length = S.E.ivLen →
      Udp.Remote.enabled S r (.remoteRecv 0 D reply stale iv) = true ∧
      ∃ r' packet, Udp.Remote.fire S r (.remoteRecv 0 D reply stale iv) = .ok r' ∧
        r'.replied = r.replied ++ [{ packet, dst := rsrc }] ∧
    ∀ stale socket, Udp.Local.enabled L l (.remoteRecv 0 packet stale socket) = true ∧
      ∃ l' datagram, Udp.Local.fire L l (.remoteRecv 0 packet stale socket) = .ok l' ∧
        l'.replied = l.replied ++ [{ packet := datagram, dst := lsrc }] ∧
    ∀ request, ∃ s', s.dgramHandlerReceived T 0 (datagram.take T.udpMtu) request reply = .ok s' ∧
      s'.delivered = s.delivered ++ [⟨pair.localAddr, pair.remoteAddr, reply, request, reply⟩] ∧ Route pair lsrc rsrc s' l' r'

variable {T : Config} {L : Udp.Local.Config P} {S : Udp.Remote.Config P}

/-- ss-server makes a packet of the datagram, and ss-local a datagram of the packet. -/
theorem answer_reply (lawful : P.evp.Lawful) (made : L.E.method = .table → L.E.Initialised) (same : S.E = L.E) (front : L.front = .socks)
    {ctx : Udp.RemoteCtx} (family : ctx.af = Udp.afInet ∨ ctx.af = Udp.afInet6) (remoteAddr : BAddr) {D : Udp.Inet} {reply : Bytes}
    (from_ : D.addr.endpoint = some remoteAddr.endpoint) (fits : Fits T L.E false remoteAddr reply) (encTmp : Buffer) (stale : Nat → UInt8)
    {iv : Bytes} (ivLen : iv.length = S.E.ivLen) :
    ∃ packet encTmp', Udp.Remote.reply S ctx encTmp D reply stale iv = .ok (some packet, encTmp') ∧
      ∀ decTmp stale, ∃ decTmp', Udp.Local.answer L decTmp packet stale = .ok (some (socksUdpHeader remoteAddr ++ reply, none), decTmp') := by
  have wrote := remoteAddr.wrote_headerBytes
  have length := length_headerBytes remoteAddr
  have header : Udp.Remote.replyHeader ctx D = remoteAddr.headerBytes := by
    rw [Udp.Remote.replyHeader, if_pos family]
    exact remoteAddr.construct_eq from_
  have datagram := fits.datagram
  have packet := fits.packet
  obtain ⟨encTmp', sealed⟩ := Udp.Remote.reply_seals (C := S) lawful ctx encTmp D reply stale ivLen
    (by simp only [Udp.maxUdpPacketSize] at datagram; rw [header]; omega)
  rw [header, List.take_of_length_le (by omega), same] at sealed
  rw [same] at ivLen
  refine ⟨_, encTmp', sealed, fun decTmp stale => ?_⟩
  have some_ : remoteAddr.headerBytes ++ reply ≠ [] := List.cons_ne_nil _ _
  have opened : openPacket L.E false (sealPacket L.E false iv (remoteAddr.headerBytes ++ reply)) =
      some (remoteAddr.headerBytes ++ reply) :=
    openPacket_sealPacket_flagged lawful made ivLen some_ remoteAddr.flagged_headerBytes fun no => by cases no
  obtain ⟨decTmp', answered⟩ := Udp.Local.answer_ok L lawful front wrote reply opened
    (by rw [length_sealPacket lawful false ivLen, List.length_append]; exact packet) (by omega) decTmp stale
  rw [← List.append_assoc, ← socksUdpHeader_eq] at answered
  exact ⟨decTmp', answered⟩

/-- Every reply to the session comes back to the device under the pair of the session. -/
theorem returns (lawful : P.evp.Lawful) (made : L.E.method = .table → L.E.Initialised) (same : S.E = L.E) (front : L.front = .socks)
    (pair : ConAddr) (lsrc rsrc : Udp.Sockaddr) : Returns T L S pair lsrc rsrc := by
  intro s l r route D reply from_ fits stale iv ivLen
  obtain ⟨con, here, own⟩ := route.connection
  obtain ⟨lctx, lhere, lon, lclient⟩ := route.local_
  obtain ⟨rctx, rhere, ron, rclient, family⟩ := route.server
  obtain ⟨packet, encTmp, replied, answers⟩ := answer_reply lawful made same front family pair.remoteAddr from_ fits r.encTmp stale ivLen
  refine ⟨Bool.and_eq_true_iff.mpr ⟨Udp.Sessions.watched_iff.mpr ⟨rctx, rhere, ron⟩, decide_eq_true ivLen⟩,
    { r with encTmp, replied := r.replied ++ [{ packet, dst := rsrc }] }, packet, ?_, rfl, fun stale socket => ?_⟩
  · rw [Udp.Remote.fire, Udp.Remote.remoteRecvCb, Udp.Sessions.deref_ok rhere, ok_bind, replied, ← rclient]
    rfl
  obtain ⟨decTmp, answered⟩ := answers l.decTmp stale
  refine ⟨Udp.Sessions.watched_iff.mpr ⟨lctx, lhere, lon⟩,
    { l with decTmp, replied := l.replied ++ [{ packet := socksUdpHeader pair.remoteAddr ++ reply, dst := lsrc }] }, _, ?_, rfl,
    fun request => ?_⟩
  · rw [Udp.Local.fire, Udp.Local.remoteRecvCb, Udp.Sessions.deref_ok lhere, ok_bind, answered, ← lclient]
    rfl
  subst own
  exact ⟨_, dgramHandlerReceived_ok here request fits.device, rfl, ⟨con, here, rfl⟩, ⟨lctx, lhere, lon, lclient⟩,
    ⟨rctx, rhere, ron, rclient, family⟩⟩

/-- With the flag that ss-local sets, the header is still one of the address. -/
theorem BAddr.flagOn_headerBytes (addr : BAddr) (auth : Bool) (payload : Bytes) :
    ∃ t, Udp.Local.flagOn auth (addr.headerBytes ++ payload) = t :: (addr.header.addr.body ++ (addr.header.port ++ payload)) ∧
      t &&& 0xf = addr.header.addr.atyp ∧ flagged (Udp.Local.flagOn auth (addr.headerBytes ++ payload)) = auth := by
  refine ⟨if auth then addr.header.addr.atyp ||| 0x10 else addr.header.addr.atyp, ?_, ?_, ?_⟩
  · rw [headerBytes, List.cons_append, List.append_assoc]
    rfl
  · cases addr <;> cases auth <;> simp only [header, Address.atyp] <;> decide
  · cases addr <;> cases auth
    · exact (show ((1 : UInt8) &&& 0x10 != 0) = false by decide)
    · exact (show ((1 : UInt8) ||| 0x10) &&& 0x10 != 0 by decide)
    · exact (show ((4 : UInt8) &&& 0x10 != 0) = false by decide)
    · exact (show ((4 : UInt8) ||| 0x10) &&& 0x10 != 0 by decide)

/-- A payload that fits reaches its destination, and whatever the destination sends back comes to the pair that has asked. -/
theorem relayed_there_and_back (lawful : P.evp.Lawful) (made : L.E.method = .table → L.E.Initialised) (same : S.E = L.E) (front : L.front = .socks)
    (ota : S.auth = true → L.auth = true) (pair : ConAddr) (payload : Bytes) (fits : Fits T L.E L.auth pair.remoteAddr payload)
    {free : Nat} (wide : T.udpMtu ≤ free) :
    ∃ s con datagram, (machine T).run {} (deviceEvents ⟨pair, payload⟩ free) = some (.ok s) ∧ s.heap.cell 0 = some con ∧
      con.conaddr = pair ∧ con.sent = [⟨⟨pair, payload⟩, datagram⟩] ∧
    ∀ lsrc dst stale (iv : Bytes), iv.length = L.E.ivLen →
      ∃ l packet, Udp.Local.fire L (Udp.Local.start L) (.serverRecv lsrc dst datagram stale iv true) = .ok l ∧ l.sent = [packet] ∧
    ∀ rsrc stale, ∃ r sent, Udp.Remote.fire S (Udp.Remote.start S) (.serverRecv rsrc packet stale {}) = .ok r ∧
      r.sent = [sent] ∧ sent.payload = payload ∧ sent.dst.endpoint = some pair.remoteAddr.endpoint ∧
      Route pair lsrc rsrc s l r ∧ Returns T L S pair lsrc rsrc := by
  have wrote := pair.remoteAddr.wrote_headerBytes
  have length := length_headerBytes pair.remoteAddr
  have room := fits.datagram
  obtain ⟨t, flags, typ, flag⟩ := pair.remoteAddr.flagOn_headerBytes L.auth payload
  obtain ⟨s, run, here⟩ := deviceEvents_run T ⟨pair, payload⟩ wide
  refine ⟨s, _, _, run, here, rfl, rfl, fun lsrc dst stale iv ivLen => ?_⟩
  obtain ⟨l, fired, sent, session⟩ := Udp.Local.serverRecvCb_start L lawful front wrote pair.remoteAddr.flagged_headerBytes payload
    (by omega) fits.packet lsrc dst stale ivLen
  rw [← List.append_assoc, ← socksUdpHeader_eq] at fired
  refine ⟨l, _, fired, sent, fun rsrc stale => ?_⟩
  have opened := openPacket_sealPacket_flagged lawful made ivLen
    (show Udp.Local.flagOn L.auth (pair.remoteAddr.headerBytes ++ payload) ≠ [] by rw [flags]; exact List.cons_ne_nil _ _) flag ota
  rw [← same, flags] at opened
  have inet : (Udp.headerParsed S.text pair.remoteAddr.header).storage.IsInet := by
    cases pair.remoteAddr with
    | ipv4 => exact .inl rfl
    | ipv6 => exact .inr rfl
  obtain ⟨r, ctx, addrHeader, fired', sent', here', on, client, af⟩ := Udp.Remote.serverRecvCb_start S lawful wrote.valid typ inet payload
    opened (by rw [same, ← flags, length_sealPacket lawful _ ivLen, Udp.Local.length_flagOn, List.length_append]; exact fits.packet) rsrc stale
  rw [flags, ← same]
  exact ⟨r, _, fired', sent', rfl, pair.remoteAddr.endpoint_headerParsed S.text,
    ⟨⟨_, here, rfl⟩, session, ⟨ctx, here', on, client, by rw [af]; exact inet⟩⟩, returns lawful made same front pair lsrc rsrc⟩

end

/-- The settings of a session with `salsa20` and one-time authentication. -/
def demoLocal : Udp.Local.Config rc4Platform := { Udp.localDemo with E := salsa, auth := true }

def demoServer : Udp.Remote.Config rc4Platform := { Udp.Remote.demo with E := salsa, auth := true }

/-- An MTU of 64 is enough for a byte, and for its answer. -/
theorem relayed_there_and_back_one :
    ∃ s con datagram, (machine demo).run {} (deviceEvents (demoRequest 1) 64) = some (.ok s) ∧ s.heap.cell 0 = some con ∧
      con.conaddr = (demoRequest 1).pair ∧ con.sent = [⟨demoRequest 1, datagram⟩] ∧
    ∀ lsrc dst stale (iv : Bytes), iv.length = 8 →
      ∃ l packet, Udp.Local.fire demoLocal (Udp.Local.start demoLocal) (.serverRecv lsrc dst datagram stale iv true) = .ok l ∧
        l.sent = [packet] ∧
    ∀ rsrc stale, ∃ r sent, Udp.Remote.fire demoServer (Udp.Remote.start demoServer) (.serverRecv rsrc packet stale {}) = .ok r ∧
      r.sent = [sent] ∧ sent.payload = [1] ∧ sent.dst.endpoint = some (.v4 [8, 8, 8, 8], [0, 7]) ∧
      Route (demoRequest 1).pair lsrc rsrc s l r ∧ Returns demo demoLocal demoServer (demoRequest 1).pair lsrc rsrc :=
  relayed_there_and_back (T := demo) (L := demoLocal) (S := demoServer) rc4_lawful
    (fun table => absurd (show Method.salsa20 = .table from table) (by decide)) rfl rfl id (demoRequest 1).pair [1]
    ⟨by decide, by decide, by decide⟩ (Nat.le_refl 64)

end Tun2socks

end Shadowsocks
