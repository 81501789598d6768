import Shadowsocks.Lib.Heap
import Shadowsocks.Lib.Machine
import Shadowsocks.Lib.Memory
import Shadowsocks.Lib.Tree
import Shadowsocks.Tun2socks.Addr

/-!
# The UDP sessions of tun2socks

`SocksUdpGwClient.c` as it is built for Android. A connection is a UDP socket to
ss-local for one pair of addresses; where the table is full, the least recently used one
is given to another pair. The jobs of the reactor are a stack: `PacketPassInterface_Done`
comes before a packet is looked at, so the first job of a new connection runs before the
device can give the next packet, which overwrites the buffer that `first_data` points to.
-/

namespace Shadowsocks.Tun2socks
set_option autoImplicit false
open Lib

/-- A packet read from the device: its addresses and its payload. -/
structure Request where
  pair : ConAddr
  data : Bytes
  deriving DecidableEq, Repr

/-- A packet for ss-local; which request it carries is a ghost. -/
structure Packet where
  request : Request
  bytes : Bytes
  deriving DecidableEq, Repr

/-- `SocksUdpGwClient_connection`. `queue` is what is in `udp_send_buffer`. The last field is
a ghost: what the socket has sent. -/
structure Connection where
  conaddr : ConAddr
  queue : List Packet := []
  sent : List Packet := []

/-- The jobs in the pending group that matter here. -/
inductive Job where
  | firstJob (id : Nat)
  | deviceDone
  deriving DecidableEq, Repr

/-- The steps of `connection_init` that can fail. -/
inductive InitStep where
  | malloc
  | dgram
  | reuseAddr
  | sendBuffer
  | recvBuffer
  deriving DecidableEq, Repr

/-- A call of `handler_received`. The last two fields are ghosts: the request that is
replied to, and what it is replied. -/
structure Delivery where
  localAddr : BAddr
  remoteAddr : BAddr
  data : Bytes
  request : Request
  reply : Bytes

/-- The arguments of `SocksUdpGwClient_Init`. -/
structure Config where
  udpMtu : Nat
  maxConnections : Nat
  positive : 0 < maxConnections

/-- `max_connections` as the client keeps it. -/
def Config.limit (C : Config) : Nat := if C.maxConnections > 2 ^ 16 then 2 ^ 16 else C.maxConnections

/-- `SocksUdpGwClient`, with the reactor's jobs and the buffer that holds the last packet
from the device. The other fields are ghosts: how often `connection_init` was called,
which requests were submitted and which of them had a connection, and each packet that was
queued with the pair its connection had then. -/
structure State where
  numConnections : Nat := 0
  connectionsTree : Lib.Tree ConAddr := {}
  connectionsList : List Nat := []
  heap : Heap Connection := {}
  jobs : List Job := []
  deviceBuf : Option Request := none
  attempts : Nat := 0
  submitted : List Request := []
  used : List ConAddr := []
  queued : List (ConAddr × Packet) := []
  delivered : List Delivery := []

/-- The header of a datagram for an address and the address: `RSV`, `FRAG`, `ATYP`,
`struct udpgw_addr_ipv4` or `struct udpgw_addr_ipv6`. -/
def socksUdpHeader (remoteAddr : BAddr) : Bytes :=
  match remoteAddr with
  | .ipv4 addr => [0, 0, 0, 1] ++ (be32 addr.ip.toNat ++ be16 addr.port.toNat)
  | .ipv6 ip port => [0, 0, 0, 4] ++ (ip.toList ++ be16 port.toNat)

namespace State

def deref (s : State) (id : Nat) : Except Fault Connection :=
  match s.heap.cell id with
  | some con => .ok con
  | none => .error .useAfterFree

/-- `find_connection`. -/
def findConnection (s : State) (conaddr : ConAddr) : Option Nat :=
  s.connectionsTree.lookupExact conaddrComparator conaddr

/-- `reuse_connection`. -/
def reuseConnection (s : State) (conaddr : ConAddr) : Except Fault (Nat × State) := do
  let id ← Lib.deref s.connectionsList.head?
  let _ ← s.deref id
  let tree := s.connectionsTree.remove id
  let heap := s.heap.modify id fun con => { con with conaddr }
  pure (id, { s with connectionsTree := tree.insert conaddrComparator conaddr id, heap })

/-- `connection_send`. `BufferWriter_StartPacket` returns 0, or a buffer, behind which `room` bytes of the ring are free. No
length is compared: a packet that is longer than `udp_mtu` is queued like any other one. Where it is longer than what is free,
it is written over other packets or past the ring; what that does to them is left out. -/
def connectionSend (s : State) (id : Nat) (request : Request) (room : Option Nat) : Except Fault State := do
  let con ← s.deref id
  match room with
  | none => pure s
  | some _ =>
    let bytes := socksUdpHeader con.conaddr.remoteAddr ++ request.data
    pure { s with
      heap := s.heap.modify id fun con => { con with queue := con.queue ++ [⟨request, bytes⟩] }
      queued := s.queued ++ [(con.conaddr, ⟨request, bytes⟩)] }

/-- `connection_first_job_handler`: `first_data` points into the buffer of the device. -/
def connectionFirstJobHandler (s : State) (id : Nat) (room : Option Nat) : Except Fault State := do
  let request ← Lib.deref s.deviceBuf
  s.connectionSend id request room

/-- `connection_init`: the connection it returns, if no step `fails`. -/
def connectionInit (s : State) (conaddr : ConAddr) (fails : Option InitStep) : Option Nat × State :=
  let s := { s with attempts := s.attempts + 1 }
  if fails = some .malloc then (none, s) else
  let id := s.heap.next
  let s := { s with heap := s.heap.new { conaddr }, jobs := .firstJob id :: s.jobs }
  match fails with
  | some _ => (none, { s with jobs := s.jobs.erase (.firstJob id), heap := s.heap.free id })
  | none =>
    (some id, { s with
      connectionsTree := s.connectionsTree.insert conaddrComparator conaddr id
      connectionsList := s.connectionsList ++ [id]
      numConnections := s.numConnections + 1 })

/-- The connection that a packet of a pair goes to, unless a new one is needed. -/
def oldConnection (C : Config) (s : State) (conaddr : ConAddr) : Except Fault (Option Nat × State) :=
  match s.findConnection conaddr with
  | some id => .ok (some id, s)
  | none =>
    if s.numConnections = C.limit then do
      let (id, s) ← s.reuseConnection conaddr
      pure (some id, s)
    else .ok (none, s)

/-- A request gets a connection: the ghost that records it. -/
def use (s : State) (conaddr : ConAddr) : State := { s with used := s.used ++ [conaddr] }

/-- `SocksUdpGwClient_SubmitPacket`. -/
def submitPacket (C : Config) (s : State) (request : Request) (fails : Option InitStep) (room : Option Nat) :
    Except Fault State := do
  let (con, s) ← s.oldConnection C request.pair
  match con with
  | none =>
    match s.connectionInit request.pair fails with
    | (some _, s) => pure (s.use request.pair)
    | (none, s) => pure s
  | some id =>
    let s := { s with connectionsList := s.connectionsList.erase id ++ [id] }
    (s.use request.pair).connectionSend id request room

/-- The address and the payload of a datagram from ss-local. -/
def parseReply (data : Bytes) : Option (BAddr × Bytes) :=
  if data.length < 4 then none else
  let frag := data.getD 2 0
  let atyp := data.getD 3 0
  let data := data.drop 4
  if frag ≠ 0 then none else
  if atyp = 4 then
    if data.length < 18 then none
    else some (.ipv6 (.ofFn fun i => data.getD i.val 0) (readBe16 data 16), data.drop 18)
  else
    if data.length < 6 then none
    else some (.ipv4 ⟨readBe32 data 0, readBe16 data 4⟩, data.drop 6)

/-- `dgram_handler_received` for a datagram that replies to `request`. -/
def dgramHandlerReceived (C : Config) (s : State) (id : Nat) (data : Bytes) (request : Request) (reply : Bytes) :
    Except Fault State := do
  let con ← s.deref id
  match parseReply data with
  | none => pure s
  | some (remoteAddr, data) =>
    if remoteAddr.compare con.conaddr.remoteAddr = false then pure s else
    if C.udpMtu < data.length then pure s else
    pure { s with delivered := s.delivered ++ [⟨con.conaddr.localAddr, remoteAddr, data, request, reply⟩] }

end State

/-- What can happen: the device gives a packet, a job runs, the socket of a connection
sends the packet in front of its queue or loses it, or a reply to the `i`-th packet it
has sent arrives. -/
inductive Event where
  | packet (request : Request) (fails : Option InitStep) (room : Option Nat)
  | job (room : Option Nat)
  | send (id : Nat) (ok : Bool)
  | arrive (id i : Nat) (reply : Bytes)

namespace State

/-- `device_read_handler_send`: `PacketPassInterface_Done` schedules a job. -/
def deviceRead (s : State) (request : Request) : State :=
  { s with jobs := .deviceDone :: s.jobs, deviceBuf := some request, submitted := s.submitted ++ [request] }

/-- `BPendingGroup_ExecuteJob`. -/
def executeJob (s : State) (room : Option Nat) : Except Fault State :=
  match s.jobs with
  | [] => .ok s
  | .firstJob id :: jobs => { s with jobs }.connectionFirstJobHandler id room
  | .deviceDone :: jobs => .ok { s with jobs }

/-- The packet in front of the queue leaves it. -/
def sendFirst (s : State) (id : Nat) (ok : Bool) : Except Fault State := do
  let con ← s.deref id
  match con.queue with
  | [] => pure s
  | packet :: queue =>
    pure { s with heap := s.heap.modify id fun con =>
      { con with queue, sent := if ok then con.sent ++ [packet] else con.sent } }

/-- A reply is a datagram with the address the request went to; no more of it is received
than the buffer holds. -/
def arrive (C : Config) (s : State) (id i : Nat) (reply : Bytes) : Except Fault State := do
  let con ← s.deref id
  match con.sent[i]? with
  | none => pure s
  | some packet =>
    let datagram := socksUdpHeader packet.request.pair.remoteAddr ++ reply
    s.dgramHandlerReceived C id (datagram.take C.udpMtu) packet.request reply

end State

/-- The ring gives the writer no buffer with less than `udp_mtu` bytes behind it. -/
def machine (C : Config) : Machine State Event Fault where
  enabled s e :=
    match e with
    | .packet _ _ room => decide (Job.deviceDone ∉ s.jobs) && room.all fun free => decide (C.udpMtu ≤ free)
    | .job room => decide (s.jobs ≠ []) && room.all fun free => decide (C.udpMtu ≤ free)
    | .send id _ => (s.heap.cell id).any fun con => decide (con.queue ≠ [])
    | .arrive id i _ => (s.heap.cell id).any fun con => decide (i < con.sent.length)
  fire s e :=
    match e with
    | .packet request fails room => (s.deviceRead request).submitPacket C request fails room
    | .job room => s.executeJob room
    | .send id ok => s.sendFirst id ok
    | .arrive id i reply => s.arrive C id i reply

end Shadowsocks.Tun2socks
