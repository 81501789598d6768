import Shadowsocks.Tun2socks.EndToEnd
import Shadowsocks.Tun2socks.UdpPackets

/-!
# The UDP side of tun2socks

`device_read_handler_send` gives a packet of the device to the DNS gateway, to the UDP sessions or to
lwIP, and what a session hands over is written to the device. So a run of the sessions is one between
packets of the device.

`device_replies` is about all of it: in whatever order packets, jobs and datagrams come, a packet
that is written to the device answers one that was read, and comes from where that one went.
-/

namespace Shadowsocks.Tun2socks
set_option autoImplicit false
open Lib

/-- `SocksUdpGwClient_Init`, with `DEFAULT_UDPGW_MAX_CONNECTIONS`. -/
def Settings.client (S : Settings) : Config where
  udpMtu := S.udpMtu
  maxConnections := 256
  positive := by decide

/-- The DNS gateway and the UDP sessions. The other fields are ghosts: the packets that were read from the
device, those that were passed on to lwIP, and the replies that were written. -/
structure Device where
  dns : Dns.State := {}
  client : State := {}
  read : List Bytes := []
  passed : List Bytes := []
  replies : List Bytes := []

/-- What can happen: the device gives a packet, or something happens to the sessions. `pbuf` is whether `pbuf_alloc`
finds memory, and `stale` what is left in `device_write_buf`. -/
inductive DeviceEvent where
  | packet (data : Bytes) (memory : Bool) (fails : Option InitStep) (room : Option Nat) (pbuf : Bool) (stale : Bytes)
  | job (room : Option Nat)
  | send (id : Nat) (ok : Bool)
  | arrive (id i : Nat) (reply stale : Bytes)

/-- `PacketPassInterface_Done` for a packet that is no request. -/
def State.passOver (s : State) : State := { s with jobs := .deviceDone :: s.jobs, deviceBuf := none }

namespace Device

/-- `device_read_handler_send`, for a packet that is not one of the DNS gateway. -/
def processUdp (S : Settings) (t : Device) (data : Bytes) (fails : Option InitStep) (room : Option Nat) (pbuf : Bool) :
    Except Fault Device :=
  match processDeviceUdpPacket S data with
  | some sub =>
    ((t.client.deviceRead sub.request).submitPacket S.client sub.request fails room).map fun client => { t with client }
  | none =>
    .ok { t with
      client := t.client.passOver
      passed := if 65535 < data.length ∨ pbuf = false then t.passed else t.passed ++ [data] }

/-- `device_read_handler_send`. -/
def deviceReadHandlerSend (S : Settings) (t : Device) (data : Bytes) (memory : Bool) (fails : Option InitStep)
    (room : Option Nat) (pbuf : Bool) (stale : Bytes) : Except Fault Device := do
  let dns ← Dns.processDeviceDnsPacket S.toConfig t.dns { data, memory, stale }
  if t.dns.log.length < dns.log.length then
    pure { t with dns, client := t.client.passOver, read := t.read ++ [data] }
  else processUdp S { t with dns, read := t.read ++ [data] } data fails room pbuf

/-- The call of `handler_received`. -/
def deliver (S : Settings) (stale : Bytes) (replies : List Bytes) (d : Delivery) : Except Fault (List Bytes) :=
  (udpgwClientHandlerReceived S stale d.localAddr d.remoteAddr d.data).map fun w => replies ++ w.toList

/-- A datagram arrives; what is handed over is written. -/
def arrive (S : Settings) (t : Device) (id i : Nat) (reply stale : Bytes) : Except Fault Device := do
  let client ← t.client.arrive S.client id i reply
  let replies ← (client.delivered.drop t.client.delivered.length).foldlM (deliver S stale) t.replies
  pure { t with client, replies }

end Device

/-- Packets come from the device and from the sockets, and jobs run in between. -/
def deviceMachine (S : Settings) : Machine Device DeviceEvent Fault where
  enabled t e :=
    match e with
    | .packet data _ _ room _ stale =>
      decide (Job.deviceDone ∉ t.client.jobs) && (room.all fun free => decide (S.udpMtu ≤ free)) &&
        decide (data.length ≤ S.mtu) && decide (stale.length = S.mtu)
    | .job room => (machine S.client).enabled t.client (.job room)
    | .send id ok => (machine S.client).enabled t.client (.send id ok)
    | .arrive id i reply stale => (machine S.client).enabled t.client (.arrive id i reply) && decide (stale.length = S.mtu)
  fire t e :=
    match e with
    | .packet data memory fails room pbuf stale => t.deviceReadHandlerSend S data memory fails room pbuf stale
    | .job room => (t.client.executeJob room).map fun client => { t with client }
    | .send id ok => (t.client.sendFirst id ok).map fun client => { t with client }
    | .arrive id i reply stale => t.arrive S id i reply stale

/-- `Apart`, of what happens to the sessions. -/
def DeviceApart (S : Settings) (t : Device) : DeviceEvent → Prop
  | .packet data _ fails room _ _ => ∀ sub ∈ processDeviceUdpPacket S data, Apart S.client t.client (.packet sub.request fails room)
  | .job room => Apart S.client t.client (.job room)
  | .arrive id i reply _ => Apart S.client t.client (.arrive id i reply)
  | .send _ _ => True

instance (S : Settings) (t : Device) (e : DeviceEvent) : Decidable (DeviceApart S t e) :=
  match e with
  | .packet data _ fails room _ _ =>
    inferInstanceAs (Decidable (∀ sub ∈ processDeviceUdpPacket S data, Apart S.client t.client (.packet sub.request fails room)))
  | .job room => inferInstanceAs (Decidable (Apart S.client t.client (.job room)))
  | .arrive id i reply _ => inferInstanceAs (Decidable (Apart S.client t.client (.arrive id i reply)))
  | .send _ _ => inferInstanceAs (Decidable True)

theorem map_eq_ok {α β : Type} {x : Except Fault α} {f : α → β} {b : β} : x.map f = .ok b ↔ ∃ a, x = .ok a ∧ f a = b := by
  cases x <;> simp [Except.map]

/-! ## What is submitted and delivered -/

/-- Nothing is submitted, and nothing delivered. -/
structure Quiet (s s' : State) : Prop where
  submitted : s'.submitted = s.submitted
  delivered : s'.delivered = s.delivered

section
variable {C : Config} {s s' : State} {es : List (ConAddr × Nat)} {request : Request} {id : Nat}

/-- The steps of the client that take up no reply. -/
theorem quiet_connectionSend {room : Option Nat} (done : s.connectionSend id request room = .ok s') : Quiet s s' := by
  obtain ⟨con, -, rfl | ⟨bytes, -, rfl⟩⟩ := connectionSend_cases done
  · exact ⟨rfl, rfl⟩
  · exact ⟨rfl, rfl⟩

theorem quiet_placed {fails : Option InitStep} {room : Option Nat} (placed : Placed C s es request fails room s') : Quiet s s' := by
  cases placed with
  | known id mem done =>
    obtain ⟨submitted, delivered⟩ := quiet_connectionSend done
    exact ⟨submitted, delivered⟩
  | reused old id rest absent full split done =>
    obtain ⟨submitted, delivered⟩ := quiet_connectionSend done
    exact ⟨submitted, delivered⟩
  | created => exact ⟨rfl, rfl⟩
  | failed => exact ⟨rfl, rfl⟩

theorem quiet_executeJob {room : Option Nat} (done : s.executeJob room = .ok s') : Quiet s s' := by
  unfold State.executeJob at done
  split at done
  · cases done
    exact ⟨rfl, rfl⟩
  · obtain ⟨request, -, done⟩ := bind_eq_ok.mp done
    obtain ⟨submitted, delivered⟩ := quiet_connectionSend done
    exact ⟨submitted, delivered⟩
  · cases done
    exact ⟨rfl, rfl⟩

theorem quiet_sendFirst {ok : Bool} (done : s.sendFirst id ok = .ok s') : Quiet s s' := by
  obtain ⟨con, -, done⟩ := bind_eq_ok.mp done
  split at done
  · cases done
    exact ⟨rfl, rfl⟩
  · cases done
    exact ⟨rfl, rfl⟩

theorem Sound.passOver (sound : Sound C s) (idle : Job.deviceDone ∉ s.jobs) : Sound C s.passOver := by
  obtain ⟨es, holds, scheduled⟩ := sound
  refine ⟨es, holds.around, .done ?_⟩
  cases scheduled with
  | idle jobs => rw [State.passOver, jobs]
  | done jobs => exact absurd (by rw [jobs]; simp) idle
  | first _ _ jobs => exact absurd (by rw [jobs]; simp) idle

theorem Loyal.passOver (loyal : Loyal s) : Loyal s.passOver where
  own := loyal.own
  known := loyal.known
  buffered := nofun
  delivered := loyal.delivered

end

/-! ## What is written -/

/-- A packet for a reply, from the remote address to the local one. -/
def Answers (S : Settings) (d : Delivery) (p : DevicePacket) : Prop :=
  p.request = ⟨⟨d.remoteAddr, d.localAddr⟩, d.data⟩ ∧ p.coded.length ≤ S.mtu ∧ p.Handled S

/-- The replies for which there is room have been written, each as a packet of its own. -/
def Written (S : Settings) (ds : List Delivery) (ws : List Bytes) : Prop :=
  ∃ ps : List DevicePacket, ws = ps.map DevicePacket.coded ∧ List.Forall₂ (Answers S) (ds.filter fun d => Room S d.data d.localAddr) ps

/-- The invariant of a run. -/
structure Faithful (S : Settings) (t : Device) : Prop where
  sound : Sound S.client t.client
  loyal : Loyal t.client
  requests : ∀ request ∈ t.client.submitted, ∃ data ∈ t.read, ∃ sub, processDeviceUdpPacket S data = some sub ∧ sub.request = request
  written : Written S t.client.delivered t.replies

section
variable {S : Settings} {t t' : Device} {d : Delivery} {stale : Bytes}

/-- Both addresses of a packet are of one version. -/
theorem submission_types {data : Bytes} {sub : Submission} (submitted : processDeviceUdpPacket S data = some sub) :
    sub.request.pair.localAddr.type = sub.request.pair.remoteAddr.type := by
  obtain ⟨-, read, -⟩ := processDeviceUdpPacket_iff.mp submitted
  rcases readSubmission_cases read with ⟨d, -, -, rfl⟩ | ⟨d, -, -, rfl⟩ <;> rfl

/-- A reply that is delivered is written behind the others. -/
theorem Written.deliver {ds : List Delivery} {ws : List Bytes} (written : Written S ds ws) (types : d.localAddr.type = d.remoteAddr.type)
    (buffer : stale.length = S.mtu) : ∃ ws', Device.deliver S stale ws d = .ok ws' ∧ Written S (ds ++ [d]) ws' := by
  obtain ⟨ps, rfl, answers⟩ := written
  by_cases room : Room S d.data d.localAddr
  · obtain ⟨p, done, short, request, handled⟩ := received_room types buffer room
    refine ⟨ps.map DevicePacket.coded ++ [p.coded], ?_, ps ++ [p], by rw [List.map_append]; rfl, ?_⟩
    · rw [Device.deliver, done]
      rfl
    · have kept : [d].filter (fun d => Room S d.data d.localAddr) = [d] := by simp [room]
      rw [List.filter_append, kept]
      exact List.rel_append answers (.cons ⟨request, short, handled⟩ .nil)
  · refine ⟨ps.map DevicePacket.coded, ?_, ps, rfl, ?_⟩
    · rw [Device.deliver, received_full types room]
      simp [Except.map]
    · have dropped : [d].filter (fun d => Room S d.data d.localAddr) = [] := by simp [room]
      rw [List.filter_append, dropped, List.append_nil]
      exact answers

/-- The packet and its request are kept, whatever else is done. -/
theorem Faithful.quiet (faithful : Faithful S t) {client : State} {data : List Bytes} (sound : Sound S.client client) (loyal : Loyal client)
    (quiet : Quiet t.client client) {dns : Dns.State} {passed : List Bytes} :
    Faithful S { t with dns, client, read := t.read ++ data, passed } where
  sound := sound
  loyal := loyal
  requests request mem := by
    obtain ⟨data, read, submitted⟩ := faithful.requests request (quiet.submitted ▸ mem)
    exact ⟨data, List.mem_append_left _ read, submitted⟩
  written := by
    change Written S client.delivered t.replies
    rw [quiet.delivered]
    exact faithful.written

/-- A quiet step leaves what has been written as it is. -/
theorem Faithful.still (faithful : Faithful S t) {client : State} (sound : Sound S.client client) (loyal : Loyal client)
    (quiet : Quiet t.client client) : Faithful S { t with client } := by
  have kept : Faithful S { t with client, read := t.read ++ [] } := faithful.quiet sound loyal quiet
  rwa [List.append_nil] at kept

/-- A packet from the device. -/
theorem Faithful.packet (faithful : Faithful S t) {data : Bytes} {memory pbuf : Bool} {room : Option Nat} {fails : Option InitStep}
    (idle : Job.deviceDone ∉ t.client.jobs) (given : (room.all fun free => decide (S.udpMtu ≤ free)) = true)
    (apart : DeviceApart S t (.packet data memory fails room pbuf stale))
    (fired : t.deviceReadHandlerSend S data memory fails room pbuf stale = .ok t') : Faithful S t' := by
  obtain ⟨dns, -, fired⟩ := bind_eq_ok.mp fired
  have passes (passed : List Bytes) : Faithful S { t with dns, client := t.client.passOver, read := t.read ++ [data], passed } :=
    faithful.quiet (faithful.sound.passOver idle) faithful.loyal.passOver ⟨rfl, rfl⟩
  split at fired
  · cases fired
    exact passes _
  · unfold Device.processUdp at fired
    split at fired
    next sub submitted =>
      obtain ⟨client, done, rfl⟩ := map_eq_ok.mp fired
      have on : (machine S.client).enabled t.client (.packet sub.request fails room) = true :=
        Bool.and_eq_true_iff.mpr ⟨decide_eq_true idle, given⟩
      have done' : (machine S.client).fire t.client (.packet sub.request fails room) = .ok client := done
      obtain ⟨es, holds, -⟩ := faithful.sound
      obtain ⟨client', done'', placed⟩ := (holds.read sub.request).placed sub.request fails room
      cases done''.symm.trans done
      have quiet := quiet_placed placed
      refine ⟨faithful.sound.fire on done', faithful.loyal.fire faithful.sound on (apart sub submitted) done', ?_, ?_⟩
      · intro request mem
        -- the request is an old one, or the one of this packet
        rw [quiet.submitted] at mem
        rcases List.mem_append.mp mem with old | new
        · obtain ⟨data', read, sub', from_⟩ := faithful.requests request old
          exact ⟨data', List.mem_append_left _ read, sub', from_⟩
        · exact ⟨data, List.mem_append_right _ (List.mem_singleton.mpr rfl), sub, submitted, (List.mem_singleton.mp new).symm⟩
      · change Written S client.delivered t.replies
        rw [quiet.delivered]
        exact faithful.written
    · cases fired
      exact passes _

/-- What arrives is delivered to the pair of a request, so its addresses are of one type. -/
theorem Faithful.arrive (faithful : Faithful S t) {id i : Nat} {reply : Bytes} (buffer : stale.length = S.mtu)
    (on : (machine S.client).enabled t.client (.arrive id i reply) = true) (apart : Apart S.client t.client (.arrive id i reply))
    {client : State} (arrived : t.client.arrive S.client id i reply = .ok client) :
    ∃ t', t.arrive S id i reply stale = .ok t' ∧ Faithful S t' := by
  have sound := faithful.sound.fire on arrived
  have loyal := faithful.loyal.fire faithful.sound on apart arrived
  rcases arrive_cases arrived with rfl | ⟨con, packet, -, -, -, -, rfl⟩
  · refine ⟨{ t with client := t.client }, ?_, faithful⟩
    rw [Device.arrive, arrived, ok_bind, List.drop_length]
    rfl
  · generalize List.take _ reply = part at *
    generalize made : Delivery.mk con.conaddr.localAddr con.conaddr.remoteAddr part packet.request reply = d at *
    obtain ⟨submitted, own, -⟩ := loyal.delivered d (List.mem_append_right _ (List.mem_singleton.mpr rfl))
    have types : d.localAddr.type = d.remoteAddr.type := by
      obtain ⟨data, -, sub, taken, same⟩ := faithful.requests _ submitted
      have types := submission_types taken
      rwa [same, own] at types
    obtain ⟨ws, done, written⟩ := faithful.written.deliver types buffer
    refine ⟨{ t with client := { t.client with delivered := t.client.delivered ++ [d] }, replies := ws }, ?_,
      sound, loyal, faithful.requests, written⟩
    rw [Device.arrive, arrived, ok_bind]
    dsimp only
    rw [List.drop_left]
    simp only [List.foldlM_cons, List.foldlM_nil, done, ok_bind]
    rfl

/-- Every step keeps the invariant. -/
theorem Faithful.fire (faithful : Faithful S t) {e : DeviceEvent} (on : (deviceMachine S).enabled t e = true) (apart : DeviceApart S t e)
    (fired : (deviceMachine S).fire t e = .ok t') : Faithful S t' := by
  cases e with
  | packet data memory fails room pbuf stale =>
    simp only [deviceMachine, Bool.and_eq_true, decide_eq_true_eq] at on
    exact faithful.packet on.1.1.1 on.1.1.2 apart fired
  | job room =>
    obtain ⟨client, done, rfl⟩ := map_eq_ok.mp fired
    have on' : (machine S.client).enabled t.client (.job room) = true := on
    have done' : (machine S.client).fire t.client (.job room) = .ok client := done
    exact faithful.still (faithful.sound.fire on' done') (faithful.loyal.fire faithful.sound on' apart done') (quiet_executeJob done)
  | send id ok =>
    obtain ⟨client, done, rfl⟩ := map_eq_ok.mp fired
    have on' : (machine S.client).enabled t.client (.send id ok) = true := on
    have done' : (machine S.client).fire t.client (.send id ok) = .ok client := done
    exact faithful.still (faithful.sound.fire on' done') (faithful.loyal.fire faithful.sound on' trivial done') (quiet_sendFirst done)
  | arrive id i reply stale =>
    simp only [deviceMachine, Bool.and_eq_true, decide_eq_true_eq] at on
    obtain ⟨client, arrived, -⟩ := bind_eq_ok.mp fired
    obtain ⟨t'', same, kept⟩ := faithful.arrive on.2 on.1 apart arrived
    obtain rfl := Except.ok.inj (same.symm.trans fired)
    exact kept

/-- What is written answers what was read, in every run. -/
theorem faithful_of_reach (reach : (deviceMachine S).Reach (DeviceApart S) {} t) : Faithful S t :=
  reach.invariant (Faithful S) ⟨sound_start S.client, ⟨nofun, nofun, nofun, nofun⟩, nofun, [], rfl, .nil⟩
    fun _ _ _ faithful on apart fired => faithful.fire on apart fired

end

/-- The pair of the query. -/
def queryPair : ConAddr := ⟨.ipv4 ⟨0x0A000001, 4000⟩, .ipv4 ⟨0x08080808, 53⟩⟩

/-- The query has been read. -/
def queryRead : Device where
  client := ((({} : State).deviceRead ⟨queryPair, []⟩).connectionInit queryPair none).2.use queryPair
  read := [(Dns.emptyQuery 4000).bytes]

/-- A packet is read, and its connection is made by the job. -/
theorem reach_queryRead : (deviceMachine demoSettings).Reach (DeviceApart demoSettings) {} queryRead := by
  have nonzero : (Dns.emptyQuery 4000).udp.checksum ≠ 0xFFFF := by decide +kernel
  have submitted : processDeviceUdpPacket demoSettings (Dns.emptyQuery 4000).bytes = some ⟨⟨queryPair, []⟩, false⟩ := by
    have coded := @submitted_coded demoSettings (.v4 (Dns.emptyQuery 4000)) rfl trivial (Nat.zero_le _) []
    rw [List.append_nil, (DevicePacket.v4 (Dns.emptyQuery 4000)).coded_eq_iff.mpr nonzero] at coded
    exact coded
  refine @Machine.Reach.step _ _ _ _ _ _ _ _ (.packet (Dns.emptyQuery 4000).bytes true none none true (List.replicate 1500 0)) .refl ?_ ?_ ?_
  · decide +kernel
  · intro sub mem
    obtain rfl := Option.some.inj (submitted.symm.trans mem)
    exact ⟨nofun, fun _ full => nomatch full⟩
  · have absent : (({} : State).deviceRead ⟨queryPair, []⟩).oldConnection demoSettings.client queryPair =
        .ok (none, ({} : State).deviceRead ⟨queryPair, []⟩) := by
      rw [State.oldConnection]
      exact if_neg (by decide)
    change Device.processUdp demoSettings { read := [(Dns.emptyQuery 4000).bytes] } _ none none true = _
    rw [Device.processUdp, submitted]
    dsimp only
    rw [State.submitPacket, absent]
    rfl

theorem reach_querySent : ∃ t con, (deviceMachine demoSettings).Reach (DeviceApart demoSettings) {} t ∧ t.client.delivered = [] ∧
    t.client.heap.cell 0 = some con ∧ con.conaddr = queryPair ∧ con.sent = [⟨⟨queryPair, []⟩, socksUdpHeader queryPair.remoteAddr⟩] := by
  obtain ⟨t, ran, sent⟩ := Machine.exists_of_leadsTo (show ((deviceMachine demoSettings).restrict fun t e =>
      decide (DeviceApart demoSettings t e)).leadsTo queryRead [.job (some 1472), .job none, .send 0 true]
    (fun t => t.client.delivered.isEmpty && (t.client.heap.cell 0).any fun con => decide (con.conaddr = queryPair) &&
      decide (con.sent = [⟨⟨queryPair, []⟩, socksUdpHeader queryPair.remoteAddr⟩])) = true by decide +kernel)
  simp only [Bool.and_eq_true, List.isEmpty_iff, Option.any_eq_true, decide_eq_true_eq] at sent
  obtain ⟨idle, con, here, own, sent⟩ := sent
  exact ⟨t, con, .of_restrict (fun _ _ => of_decide_eq_true) reach_queryRead ran, idle, here, own, sent⟩

end Shadowsocks.Tun2socks
