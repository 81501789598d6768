import Shadowsocks.Lib.Ledger
import Shadowsocks.Lib.Machine
import Shadowsocks.Tun2socks.Ipv4

/-!
# The DNS gateway of tun2socks

`process_device_dns_packet` sends queries to the gateway and rewrites what comes from
the gateway's port as a reply. `connections_tree` has one record for a client port: the
addresses of the query that made it, and how many queries have not been answered.
-/

namespace Shadowsocks.Tun2socks.Dns
set_option autoImplicit false
open Lib

/-- `Connection`. -/
structure Connection where
  localAddr : Ipv4Addr
  remoteAddr : Ipv4Addr
  port : UInt16
  count : Nat
  deriving DecidableEq, Repr

/-- `options.dnsgw` with `dnsgw`, `netif_ipaddr` and the MTU of the device. -/
structure Config where
  dnsgw : Option Ipv4Addr
  netifIpaddr : UInt32
  mtu : Nat

/-- What is done to a packet. -/
inductive Kind where
  | toDns
  | fromDns
  deriving DecidableEq, Repr

/-- A packet `read` from the device, what it was `rewritten` to and the `packet` sent. -/
structure Message where
  kind : Kind
  read : Datagram
  rewritten : Datagram
  packet : Bytes

/-- `init` and `connections_tree`. The last field is a ghost. -/
structure State where
  init : Bool := false
  connections : List Connection := []
  log : List Message := []

/-- A packet read from the device; `memory` is whether `malloc` finds any, and `stale`
what earlier packets left in `device_write_buf`. -/
structure Event where
  data : Bytes
  memory : Bool
  stale : Bytes

namespace State

/-- `find_connection`. -/
def findConnection (s : State) (port : UInt16) : Option Connection :=
  s.connections.find? fun con => con.port = port

/-- The record of the port is replaced, or removed. -/
def update (s : State) (port : UInt16) (con : Option Connection) : State :=
  { s with connections :=
      match con with
      | some con => s.connections.replaceF fun old => if old.port = port then some con else none
      | none => s.connections.eraseP fun old => old.port = port }

/-- `remove_connection`. -/
def removeConnection (s : State) (con : Connection) : State :=
  if con.count - 1 ≤ 0 then s.update con.port none
  else s.update con.port (some { con with count := con.count - 1 })

/-- `insert_connection`. -/
def insertConnection (s : State) (localAddr remoteAddr : Ipv4Addr) (port : UInt16) (memory : Bool) : Except Fault State :=
  match s.findConnection port with
  | some con =>
    if con.count + 1 < 2 ^ 31 then .ok (s.update port (some { con with count := con.count + 1 }))
    else .error .intOverflow
  | none =>
    if memory then .ok { s with connections := s.connections ++ [{ localAddr, remoteAddr, port, count := 1 }] }
    else .error .nullPointer

end State

/-- Port 53. -/
def dnsPort : UInt16 := 53

/-- `memcpy` of the headers and the data into `device_write_buf`; what `BTap_Send` gets. -/
def writePacket (deviceWriteBuf : Bytes) (d : Datagram) : Except Fault Bytes := do
  let buf ← store deviceWriteBuf 0 d.ip.bytes
  let buf ← store buf 20 d.udp.bytes
  let buf ← store buf 28 d.data
  pure (buf.take (20 + 8 + d.data.length))

/-- The end of the function, from the updates of the checksums on. -/
def submit (s : State) (kind : Kind) (stale : Bytes) (read rewritten : Datagram) : Except Fault State := do
  let packet ← writePacket stale rewritten.update
  pure { s with log := s.log ++ [{ kind, read, rewritten := rewritten.update, packet }] }

/-- `to_dns`. -/
def toDns (C : Config) (gw : Ipv4Addr) (s : State) (e : Event) (d : Datagram) : Except Fault State := do
  let s := if s.init then s else { s with init := true, connections := [] }
  let s ← s.insertConnection d.source d.destination d.udp.sourcePort e.memory
  submit s .toDns e.stale d
    { d with
      ip := { d.ip with destinationAddress := gw.ip, sourceAddress := C.netifIpaddr }
      udp := { d.udp with destPort := gw.port } }

/-- `from_dns`. -/
def fromDns (s : State) (e : Event) (d : Datagram) : Except Fault State :=
  if s.init = false then .ok s else
  match s.findConnection d.udp.destPort with
  | some con =>
    submit (s.removeConnection con) .fromDns e.stale d
      { d with
        ip := { d.ip with sourceAddress := con.remoteAddr.ip, destinationAddress := con.localAddr.ip }
        udp := { d.udp with sourcePort := con.remoteAddr.port } }
  | none => .ok s

/-- `process_device_dns_packet`. -/
def processDeviceDnsPacket (C : Config) (s : State) (e : Event) : Except Fault State :=
  match C.dnsgw with
  | none => .ok s
  | some gw =>
    match readDatagram e.data with
    | none => .ok s
    | some d =>
      if d.udp.destPort = dnsPort then toDns C gw s e d
      else if d.udp.sourcePort = gw.port then fromDns s e d
      else .ok s

/-- The device gives packets of at most its MTU, the size of `device_write_buf`. -/
def machine (C : Config) : Machine State Event Fault where
  enabled _ e := decide (e.data.length ≤ C.mtu ∧ e.stale.length = C.mtu)
  fire := processDeviceDnsPacket C

/-! ## What a packet does -/

theorem writePacket_ok {buf : Bytes} {d : Datagram} (room : d.bytes.length ≤ buf.length) :
    writePacket buf d = .ok d.bytes := by
  simp only [Datagram.bytes, List.length_append, Ipv4Header.length_bytes, UdpHeader.length_bytes] at room
  have first : (splice buf 0 d.ip.bytes).length = buf.length := length_splice (by rw [Ipv4Header.length_bytes]; omega)
  have second : (splice (splice buf 0 d.ip.bytes) 20 d.udp.bytes).length = buf.length := by
    rw [length_splice (by rw [UdpHeader.length_bytes, first]; omega), first]
  rw [writePacket, store_ok (by rw [Ipv4Header.length_bytes]; omega), ok_bind,
    store_ok (by rw [UdpHeader.length_bytes, first]; omega), ok_bind, store_ok (by rw [second]; omega), ok_bind, pure_eq_ok]
  congr 1
  rw [take_eq_window, window_add, window_splice_below (by omega) (by omega), window_splice_self _ _ _ (by omega)]
  exact congrArg (· ++ d.data) (window_splice_two buf d.ip.bytes d.udp.bytes (by simp; omega))

/-- What becomes of the records when `con` is counted up, made, or counted down. -/
inductive Change (cs : List Connection) (con : Connection) : Kind → List Connection → Prop where
  | opened (one : con.count = 1) : Change cs con .toDns (cs ++ [con])
  | joined (as bs : List Connection) (split : cs = as ++ con :: bs) :
      Change cs con .toDns (as ++ { con with count := con.count + 1 } :: bs)
  | removed (as bs : List Connection) (split : cs = as ++ con :: bs) (last : con.count ≤ 1) : Change cs con .fromDns (as ++ bs)
  | answered (as bs : List Connection) (split : cs = as ++ con :: bs) (more : 1 < con.count) :
      Change cs con .fromDns (as ++ { con with count := con.count - 1 } :: bs)

/-- The outcomes of a packet. -/
inductive Fired (C : Config) (s : State) (e : Event) : State → Prop where
  | passed : Fired C s e s
  | query (gw : Ipv4Addr) (d : Datagram) (con : Connection) (cs : List Connection) (m : Message)
      (gateway : C.dnsgw = some gw) (read : readDatagram e.data = some d) (dns : d.udp.destPort = dnsPort)
      (found : s.findConnection d.udp.sourcePort = some con ∨
        s.findConnection d.udp.sourcePort = none ∧ con = ⟨d.source, d.destination, d.udp.sourcePort, 1⟩)
      (change : Change s.connections con .toDns cs) (kind : m.kind = .toDns) (from_ : m.read = d)
      (packet : m.packet = m.rewritten.bytes) : Fired C s e { init := true, connections := cs, log := s.log ++ [m] }
  | reply (gw : Ipv4Addr) (d : Datagram) (con : Connection) (cs : List Connection) (m : Message)
      (gateway : C.dnsgw = some gw) (read : readDatagram e.data = some d) (other : d.udp.destPort ≠ dnsPort)
      (port : d.udp.sourcePort = gw.port) (found : s.findConnection d.udp.destPort = some con)
      (change : Change s.connections con .fromDns cs) (kind : m.kind = .fromDns) (from_ : m.read = d)
      (source : m.rewritten.source = con.remoteAddr) (destination : m.rewritten.destination = ⟨con.localAddr.ip, d.udp.destPort⟩)
      (packet : m.packet = m.rewritten.bytes) : Fired C s e { s with connections := cs, log := s.log ++ [m] }

section
variable {C : Config} {s s' : State} {e : Event} {con : Connection} {port : UInt16}

/-- Where a record is found, the list of the records is split at it. -/
theorem findConnection_split (found : s.findConnection port = some con) :
    con.port = port ∧ ∃ as bs, s.connections = as ++ con :: bs ∧ ∀ old ∈ as, ¬ old.port = port := by
  obtain ⟨same, as, bs, split, before⟩ := List.find?_eq_some_iff_append.mp found
  refine ⟨of_decide_eq_true same, as, bs, split, fun old mem => ?_⟩
  have apart := before old mem
  simpa using apart

theorem update_split {as bs : List Connection} (split : s.connections = as ++ con :: bs)
    (before : ∀ old ∈ as, ¬ old.port = con.port) (new : Option Connection) :
    s.update con.port new = { s with connections := as ++ new.toList ++ bs } := by
  refine congrArg (fun cs => { s with connections := cs }) ?_
  cases new with
  | none =>
    dsimp only
    rw [split, List.eraseP_append_right _ fun old mem => by simpa using before old mem, List.eraseP_cons_of_pos (by simp)]
    simp
  | some new =>
    dsimp only
    rw [split]
    clear split
    induction as with
    | nil => simp
    | cons old as ih =>
      have later := ih fun old mem => before old (List.mem_cons_of_mem _ mem)
      rw [List.cons_append, List.replaceF, if_neg (before old List.mem_cons_self), later]
      rfl

theorem removeConnection_change (found : s.findConnection port = some con) :
    ∃ cs, s.removeConnection con = { s with connections := cs } ∧ Change s.connections con .fromDns cs := by
  obtain ⟨rfl, as, bs, split, before⟩ := findConnection_split found
  unfold State.removeConnection
  by_cases last : con.count - 1 ≤ 0
  · rw [if_pos last]
    refine ⟨_, update_split split before none, ?_⟩
    rw [Option.toList_none, List.append_nil]
    exact .removed as bs split (by omega)
  · rw [if_neg last]
    refine ⟨_, update_split split before _, ?_⟩
    rw [Option.toList_some, List.append_assoc, List.singleton_append]
    exact .answered as bs split (by omega)

theorem insertConnection_change {localAddr remoteAddr : Ipv4Addr} {memory : Bool}
    (done : s.insertConnection localAddr remoteAddr port memory = .ok s') :
    ∃ con cs, s' = { s with connections := cs } ∧ Change s.connections con .toDns cs ∧
      (s.findConnection port = some con ∨ s.findConnection port = none ∧ con = ⟨localAddr, remoteAddr, port, 1⟩) := by
  unfold State.insertConnection at done
  cases found : s.findConnection port with
  | some con =>
    simp only [found] at done
    split at done
    · cases done
      obtain ⟨rfl, as, bs, split, before⟩ := findConnection_split found
      refine ⟨con, _, update_split split before _, ?_, .inl rfl⟩
      rw [Option.toList_some, List.append_assoc, List.singleton_append]
      exact .joined as bs split
    · cases done
  | none =>
    simp only [found] at done
    split at done
    · cases done
      exact ⟨_, _, rfl, .opened rfl, .inr ⟨rfl, rfl⟩⟩
    · cases done

/-- What is sent is no longer than what was read, so it fits. -/
theorem submit_ok (on : (machine C).enabled s e = true) {d d' : Datagram} (read : readDatagram e.data = some d)
    (data : d'.data = d.data) (t : State) (kind : Kind) :
    submit t kind e.stale d d' =
      .ok { t with log := t.log ++ [{ kind, read := d, rewritten := d'.update, packet := d'.update.bytes }] } := by
  obtain ⟨len, stale⟩ := of_decide_eq_true on
  have fits := readDatagram_length read
  unfold submit
  rw [writePacket_ok, ok_bind, pure_eq_ok]
  have same : d'.update.bytes.length = d.bytes.length := by
    simp [Datagram.bytes, Datagram.update, data]
  omega

theorem fire_cases (unused : s.init = false → s.connections = []) (on : (machine C).enabled s e = true)
    (fired : (machine C).fire s e = .ok s') : Fired C s e s' := by
  change processDeviceDnsPacket C s e = .ok s' at fired
  unfold processDeviceDnsPacket at fired
  cases gateway : C.dnsgw with
  | none =>
    rw [gateway] at fired
    cases fired
    exact .passed
  | some gw =>
    cases read : readDatagram e.data with
    | none =>
      simp only [gateway, read] at fired
      cases fired
      exact .passed
    | some d =>
      simp only [gateway, read] at fired
      split at fired
      · rename_i dns
        -- before `BAVL_Init` there are no records either
        have started : (if s.init then s else { s with init := true, connections := [] }) = { s with init := true } := by
          cases init : s.init with
          | true => rw [if_pos rfl, ← init]
          | false => rw [if_neg Bool.false_ne_true, unused init]
        rw [toDns, started] at fired
        obtain ⟨t, inserted, fired⟩ := bind_eq_ok.mp fired
        obtain ⟨con, cs, rfl, change, found⟩ := insertConnection_change inserted
        rw [submit_ok on read] at fired
        · cases fired
          exact .query gw d con cs _ gateway read dns found change rfl rfl rfl
        · rfl
      · rename_i other
        split at fired
        · rename_i port
          unfold fromDns at fired
          split at fired
          · cases fired
            exact .passed
          · cases found : s.findConnection d.udp.destPort with
            | none =>
              simp only [found] at fired
              cases fired
              exact .passed
            | some con =>
              simp only [found] at fired
              obtain ⟨cs, removed, change⟩ := removeConnection_change found
              rw [removed, submit_ok on read] at fired
              · cases fired
                exact .reply gw d con cs _ gateway read other port found change rfl rfl rfl rfl rfl
              · rfl
        · cases fired
          exact .passed

end

/-! ## Open queries -/

section
variable {κ : Type} [DecidableEq κ] (key : Connection → κ) {cs cs' : List Connection} {con : Connection}

/-- The queries that the records with the key `k` still count. -/
def pending (cs : List Connection) (k : κ) : Nat :=
  (cs.map fun con => if key con = k then con.count else 0).sum

@[simp] theorem pending_append (as bs : List Connection) (k : κ) :
    pending key (as ++ bs) k = pending key as k + pending key bs k := by
  simp [pending]

@[simp] theorem pending_cons (con : Connection) (cs : List Connection) (k : κ) :
    pending key (con :: cs) k = (if key con = k then con.count else 0) + pending key cs k := by
  simp [pending]

/-- The counter is no part of the key. -/
def Uncounted : Prop := ∀ (con : Connection) (n : Nat), key { con with count := n } = key con

variable {key}

theorem Change.pending_query (change : Change cs con .toDns cs') (uncounted : Uncounted key) (k : κ) :
    pending key cs' k = pending key cs k + if key con = k then 1 else 0 := by
  cases change with
  | opened one => simp [one, pending]
  | joined as bs split =>
    rw [split, pending_append, pending_append, pending_cons, pending_cons, uncounted con (con.count + 1)]
    dsimp only
    split <;> omega

theorem Change.pending_reply (change : Change cs con .fromDns cs') (uncounted : Uncounted key)
    (positive : 0 < con.count) (k : κ) :
    pending key cs k = pending key cs' k + if key con = k then 1 else 0 := by
  cases change with
  | removed as bs split last =>
    rw [split, pending_append, pending_append, pending_cons]
    split <;> omega
  | answered as bs split more =>
    rw [split, pending_append, pending_append, pending_cons, pending_cons, uncounted con (con.count - 1)]
    dsimp only
    split <;> omega

/-- Each record of `cs'` is one of `cs`, or `con`, but for the counter. -/
theorem Change.mem {kind : Kind} (change : Change cs con kind cs') {new : Connection} (mem : new ∈ cs') :
    new ∈ cs ∨ 0 < new.count ∧ ∃ n, new = { con with count := n } := by
  cases change with
  | opened one =>
    rcases List.mem_append.mp mem with old | last
    · exact .inl old
    · cases List.mem_singleton.mp last
      exact .inr ⟨by omega, con.count, rfl⟩
  | joined as bs split =>
    subst split
    rcases List.mem_append.mp mem with front | back
    · exact .inl (List.mem_append_left _ front)
    · rcases List.mem_cons.mp back with rfl | back
      · exact .inr ⟨Nat.succ_pos _, _, rfl⟩
      · exact .inl (List.mem_append_right _ (List.mem_cons_of_mem _ back))
  | removed as bs split =>
    subst split
    rcases List.mem_append.mp mem with front | back
    · exact .inl (List.mem_append_left _ front)
    · exact .inl (List.mem_append_right _ (List.mem_cons_of_mem _ back))
  | answered as bs split more =>
    subst split
    rcases List.mem_append.mp mem with front | back
    · exact .inl (List.mem_append_left _ front)
    · rcases List.mem_cons.mp back with rfl | back
      · exact .inr ⟨Nat.sub_pos_of_lt more, _, rfl⟩
      · exact .inl (List.mem_append_right _ (List.mem_cons_of_mem _ back))

end

/-- What holds of the records between two packets. -/
structure Sound (s : State) : Prop where
  unused : s.init = false → s.connections = []
  positive : ∀ con ∈ s.connections, 0 < con.count
  port : ∀ con ∈ s.connections, con.localAddr.port = con.port

/-- The ledger of the messages is settled, and its open queries are those the records
count. -/
structure Balanced {κ : Type} [DecidableEq κ] (key : Connection → κ) (entry : Message → Entry κ) (s : State) : Prop where
  settled : Ledger.Settled (s.log.map entry)
  counted : ∀ k, (Ledger.asked (s.log.map entry)).count k =
    (Ledger.answered (s.log.map entry)).count k + pending key s.connections k

section
variable {C : Config} {s s' : State} {e : Event}

theorem Fired.sound (fired : Fired C s e s') (sound : Sound s) : Sound s' := by
  have keeps : ∀ {con : Connection} {kind : Kind} {cs : List Connection}, Change s.connections con kind cs →
      con.localAddr.port = con.port →
      (∀ new ∈ cs, 0 < new.count) ∧ ∀ new ∈ cs, new.localAddr.port = new.port := by
    intro con kind cs change port
    refine ⟨fun new mem => ?_, fun new mem => ?_⟩
    · rcases change.mem mem with old | ⟨positive, -⟩
      · exact sound.positive new old
      · exact positive
    · rcases change.mem mem with old | ⟨-, n, rfl⟩
      · exact sound.port new old
      · exact port
  cases fired with
  | passed => exact sound
  | query gw d con cs m gateway read dns found change =>
    have port : con.localAddr.port = con.port := by
      rcases found with found | ⟨-, rfl⟩
      · exact sound.port con (List.mem_of_find?_eq_some found)
      · rfl
    obtain ⟨positive, ports⟩ := keeps change port
    exact ⟨nofun, positive, ports⟩
  | reply gw d con cs m gateway read other port found change =>
    obtain ⟨positive, ports⟩ := keeps change (sound.port con (List.mem_of_find?_eq_some found))
    refine ⟨fun unused => ?_, positive, ports⟩
    have none_ := sound.unused unused
    rw [State.findConnection, none_] at found
    cases found

theorem reach_sound {allowed : State → Event → Prop} (run : (machine C).Reach allowed {} s) : Sound s := by
  refine run.invariant Sound ⟨fun _ => rfl, nofun, nofun⟩ ?_
  intro s e s' sound on _ fired
  exact (fire_cases sound.unused on fired).sound sound

variable {κ : Type} [DecidableEq κ] {key : Connection → κ} {entry : Message → Entry κ}

/-- A record that is counted up for each query and down for each reply keeps the ledger. -/
theorem Balanced.query (balanced : Balanced key entry s) (uncounted : Uncounted key) {con : Connection}
    {cs : List Connection} {m : Message} (change : Change s.connections con .toDns cs) (asks : entry m = .ask (key con))
    {init : Bool} : Balanced key entry { init, connections := cs, log := s.log ++ [m] } where
  settled := by
    rw [List.map_append, List.map_singleton, asks]
    exact balanced.settled.ask
  counted k := by
    have counted := balanced.counted k
    rw [List.map_append, List.map_singleton, asks, Ledger.asked_append, Ledger.answered_append, List.count_append,
      List.count_append, change.pending_query uncounted k]
    simp only [Ledger.asked, Ledger.answered, List.count_singleton, List.count_nil, beq_iff_eq]
    omega

theorem Balanced.reply (balanced : Balanced key entry s) (uncounted : Uncounted key) {con : Connection}
    (positive : 0 < con.count) {cs : List Connection} {m : Message} (change : Change s.connections con .fromDns cs)
    (answers : entry m = .answer (key con)) {init : Bool} :
    Balanced key entry { init, connections := cs, log := s.log ++ [m] } where
  settled := by
    have counted := balanced.counted (key con)
    rw [change.pending_reply uncounted positive, if_pos rfl] at counted
    rw [List.map_append, List.map_singleton, answers]
    exact balanced.settled.answer (by omega)
  counted k := by
    have counted := balanced.counted k
    rw [change.pending_reply uncounted positive k] at counted
    rw [List.map_append, List.map_singleton, answers, Ledger.asked_append, Ledger.answered_append, List.count_append,
      List.count_append]
    simp only [Ledger.asked, Ledger.answered, List.count_singleton, List.count_nil, beq_iff_eq]
    omega

theorem balanced_start : Balanced key entry {} := ⟨Ledger.settled_nil, fun _ => rfl⟩

end

/-! ## Replies and the queries they answer -/

/-- A message as a request from a client port, or an answer to one. -/
def portEntry (m : Message) : Entry UInt16 :=
  match m.kind with
  | .toDns => .ask m.read.udp.sourcePort
  | .fromDns => .answer m.rewritten.udp.destPort

/-- A message as a query between two addresses, or an answer to one. -/
def flowEntry (m : Message) : Entry (Ipv4Addr × Ipv4Addr) :=
  match m.kind with
  | .toDns => .ask (m.read.source, m.read.destination)
  | .fromDns => .answer (m.rewritten.destination, m.rewritten.source)

/-- The queries read from a port, and the replies rewritten to it. -/
def queries (log : List Message) (port : UInt16) : Nat := (Ledger.asked (log.map portEntry)).count port

def replies (log : List Message) (port : UInt16) : Nat := (Ledger.answered (log.map portEntry)).count port

/-- Each reply came from the gateway and was rewritten to the answer of a query that had
been read, and had not been answered, before it. -/
structure Faithful (C : Config) (log : List Message) : Prop where
  queries : ∀ m ∈ log, m.kind = .toDns → m.read.udp.destPort = dnsPort
  came : ∀ m ∈ log, m.kind = .fromDns → C.dnsgw = some m.read.source
  client : ∀ m ∈ log, m.kind = .fromDns → m.rewritten.udp.destPort = m.read.udp.destPort
  packet : ∀ m ∈ log, m.packet = m.rewritten.bytes
  settled : Ledger.Settled (log.map flowEntry)

/-- The query of a port that has a record is the one that made it, and nothing but the
gateway sends from the gateway's port to such a port. -/
def Regular (C : Config) (s : State) (e : Event) : Prop :=
  ∀ gw ∈ C.dnsgw, ∀ d ∈ readDatagram e.data,
    (d.udp.destPort = dnsPort → ∀ con ∈ s.findConnection d.udp.sourcePort,
      con.localAddr = d.source ∧ con.remoteAddr = d.destination) ∧
    (d.udp.destPort ≠ dnsPort → d.udp.sourcePort = gw.port → (s.findConnection d.udp.destPort).isSome = true →
      d.ip.sourceAddress = gw.ip)

instance (C : Config) (s : State) (e : Event) : Decidable (Regular C s e) :=
  inferInstanceAs (Decidable (∀ gw ∈ C.dnsgw, _))

section
variable {C : Config} {s s' : State} {e : Event}

theorem Fired.ports (fired : Fired C s e s') (sound : Sound s) (balanced : Balanced Connection.port portEntry s) :
    Balanced Connection.port portEntry s' := by
  have uncounted : Uncounted Connection.port := fun _ _ => rfl
  cases fired with
  | passed => exact balanced
  | query gw d con cs m gateway read dns found change kind from_ =>
    refine balanced.query uncounted change ?_
    rcases found with found | ⟨-, rfl⟩
    · rw [portEntry, kind, from_, (findConnection_split found).1]
    · rw [portEntry, kind, from_]
  | reply gw d con cs m gateway read other port found change kind from_ source destination =>
    refine balanced.reply uncounted (sound.positive con (List.mem_of_find?_eq_some found)) change ?_
    have client : m.rewritten.udp.destPort = d.udp.destPort := congrArg Ipv4Addr.port destination
    rw [portEntry, kind, client, (findConnection_split found).1]

theorem Fired.flows (fired : Fired C s e s') (sound : Sound s) (regular : Regular C s e)
    (balanced : Balanced (fun con => (con.localAddr, con.remoteAddr)) flowEntry s) :
    Balanced (fun con => (con.localAddr, con.remoteAddr)) flowEntry s' := by
  have uncounted : Uncounted fun con => (con.localAddr, con.remoteAddr) := fun _ _ => rfl
  cases fired with
  | passed => exact balanced
  | query gw d con cs m gateway read dns found change kind from_ =>
    refine balanced.query uncounted change ?_
    rcases found with found | ⟨-, rfl⟩
    · obtain ⟨localAddr, remoteAddr⟩ := (regular gw gateway d read).1 dns con found
      rw [flowEntry, kind, from_, localAddr, remoteAddr]
    · rw [flowEntry, kind, from_]
  | reply gw d con cs m gateway read other port found change kind from_ source destination =>
    have mem := List.mem_of_find?_eq_some found
    refine balanced.reply uncounted (sound.positive con mem) change ?_
    have own : (⟨con.localAddr.ip, d.udp.destPort⟩ : Ipv4Addr) = con.localAddr := by
      rw [← (findConnection_split found).1, ← sound.port con mem]
    rw [flowEntry, kind, source, destination, own]

/-- One message more. -/
theorem Faithful.concat (faithful : Faithful C s.log) {m : Message} (dns : m.kind = .toDns → m.read.udp.destPort = dnsPort)
    (came : m.kind = .fromDns → C.dnsgw = some m.read.source)
    (client : m.kind = .fromDns → m.rewritten.udp.destPort = m.read.udp.destPort)
    (packet : m.packet = m.rewritten.bytes) (settled : Ledger.Settled ((s.log ++ [m]).map flowEntry)) :
    Faithful C (s.log ++ [m]) := by
  have both : ∀ {p : Message → Prop}, (∀ m ∈ s.log, p m) → p m → ∀ m' ∈ s.log ++ [m], p m' := by
    intro p old new m' mem
    rcases List.mem_append.mp mem with front | last
    · exact old m' front
    · rw [List.mem_singleton.mp last]
      exact new
  exact ⟨both faithful.queries dns, both faithful.came came, both faithful.client client, both faithful.packet packet, settled⟩

theorem Fired.faithful (fired : Fired C s e s') (regular : Regular C s e) (faithful : Faithful C s.log)
    (settled : Ledger.Settled (s'.log.map flowEntry)) : Faithful C s'.log := by
  cases fired with
  | passed => exact faithful
  | query gw d con cs m gateway read dns found change kind from_ packet =>
    have no : m.kind ≠ .fromDns := by rw [kind]; nofun
    exact faithful.concat (fun _ => from_ ▸ dns) (fun reply => absurd reply no) (fun reply => absurd reply no) packet settled
  | reply gw d con cs m gateway read other port found change kind from_ source destination packet =>
    have ip := (regular gw gateway d read).2 other port (by rw [found]; rfl)
    have no : m.kind ≠ .toDns := by rw [kind]; nofun
    refine faithful.concat (fun query => absurd query no) (fun _ => ?_) (fun _ => ?_) packet settled
    · rw [gateway, from_, Datagram.source, ip, port]
    · rw [from_]
      exact congrArg Ipv4Addr.port destination

/-- Whatever is read, no port gets more replies than it sent queries. -/
theorem replies_le {allowed : State → Event → Prop} (run : (machine C).Reach allowed {} s) (port : UInt16) :
    replies s.log port ≤ queries s.log port := by
  have balanced : Sound s ∧ Balanced Connection.port portEntry s := by
    refine run.invariant (fun s => Sound s ∧ Balanced Connection.port portEntry s)
      ⟨⟨fun _ => rfl, nofun, nofun⟩, balanced_start⟩ ?_
    rintro s e s' ⟨sound, balanced⟩ on _ done
    have fired := fire_cases sound.unused on done
    exact ⟨fired.sound sound, fired.ports sound balanced⟩
  exact balanced.2.settled.subperm.count_le port

/-- While the packets are regular, each reply answers the right query. -/
theorem replies_faithful (C : Config) {s : State} (run : (machine C).Reach (Regular C) {} s) :
    Faithful C s.log ∧ ∀ port, replies s.log port ≤ queries s.log port := by
  refine ⟨?_, replies_le run⟩
  have both : Sound s ∧ Balanced (fun con => (con.localAddr, con.remoteAddr)) flowEntry s ∧ Faithful C s.log := by
    refine run.invariant
      (fun s => Sound s ∧ Balanced (fun con => (con.localAddr, con.remoteAddr)) flowEntry s ∧ Faithful C s.log)
      ⟨⟨fun _ => rfl, nofun, nofun⟩, balanced_start, nofun, nofun, nofun, nofun, Ledger.settled_nil⟩ ?_
    rintro s e s' ⟨sound, balanced, faithful⟩ on regular done
    have fired := fire_cases sound.unused on done
    have balanced' := fired.flows sound regular balanced
    exact ⟨fired.sound sound, balanced', fired.faithful regular faithful balanced'.settled⟩
  exact both.2.2

end

/-! ## Queries to one and to two servers -/

/-- A gateway at 169.254.1.1, port 8153. -/
def demo : Config where
  dnsgw := some ⟨0xA9FE0101, 8153⟩
  netifIpaddr := 0x0A000002
  mtu := 64

/-- A packet with right checksums, and no payload, is read from the device. -/
def demoRead (source destination : Ipv4Addr) : Event where
  data := Datagram.bytes (Datagram.update {
    ip := { version4Ihl4 := 0x45, ds := 0, totalLength := 28, identification := 0, flags3Fragmentoffset13 := 0,
            ttl := 64, protocol := ipv4ProtocolUdp, checksum := 0, sourceAddress := source.ip,
            destinationAddress := destination.ip }
    udp := { sourcePort := source.port, destPort := destination.port, length := 8, checksum := 0 }
    data := [] })
  memory := true
  stale := List.replicate 64 0

/-- 10.0.0.1, port 4000, asks the server 8.8.8.`n`. -/
def demoQuery (n : UInt32) : Event := demoRead ⟨0x0A000001, 4000⟩ ⟨0x08080800 + n, 53⟩

/-- The gateway answers to that port. -/
def demoReply : Event := demoRead ⟨0xA9FE0101, 8153⟩ ⟨0x0A000002, 4000⟩

/-- A query and its reply. -/
theorem replies_faithful_one : ∃ s : State, s.log.length = 2 ∧ Faithful demo s.log ∧
    ∀ port, replies s.log port ≤ queries s.log port := by
  obtain ⟨s, run, two⟩ := Machine.exists_of_leadsTo (show ((machine demo).restrict fun s e => decide (Regular demo s e)).leadsTo {}
    [demoQuery 8, demoReply] (fun s => decide (s.log.length = 2)) = true by decide +kernel)
  exact ⟨s, of_decide_eq_true two, replies_faithful demo (.of_restrict (fun _ _ => of_decide_eq_true) .refl run)⟩

/-- Two servers are asked from one port: both replies are rewritten to come from the first. -/
theorem replies_misattributed : ¬ ∀ s, (machine demo).Reach (fun _ _ => True) {} s →
    Faithful demo s.log ∧ ∀ port, replies s.log port ≤ queries s.log port := by
  intro claim
  obtain ⟨s, run, twice⟩ := Machine.exists_of_leadsTo (show (machine demo).leadsTo {}
    [demoQuery 8, demoQuery 4, demoReply, demoReply]
    (fun s => decide ((Ledger.asked (s.log.map flowEntry)).count (⟨0x0A000001, 4000⟩, ⟨0x08080808, 53⟩) <
      (Ledger.answered (s.log.map flowEntry)).count (⟨0x0A000001, 4000⟩, ⟨0x08080808, 53⟩))) = true by decide +kernel)
  have faithful := (claim s (.of_run .refl (fun _ _ _ => trivial) run)).1
  exact absurd (faithful.settled.subperm.count_le _) (Nat.not_le.mpr (of_decide_eq_true twice))

end Shadowsocks.Tun2socks.Dns
