import Shadowsocks.Lib.Machine
import Shadowsocks.Tun2socks.Addr

/-!
# The SOCKS client of tun2socks

`BSocksClient` as a machine: its own handlers with the `PacketStreamSender` it sends through. The
events say how much the connection has taken or given, and whether memory was available. In the
state `up` the connection is its user's.
-/

namespace Shadowsocks.Tun2socks
set_option autoImplicit false
open Lib

/-- `struct BSocksClient_auth_info`. -/
inductive AuthInfo where
  | none
  | password (username password : Bytes)
  deriving DecidableEq, Repr

/-- `auth_type`. -/
def AuthInfo.type : AuthInfo → UInt8
  | .none => 0
  | .password .. => 2

inductive SocksState where
  | connecting
  | sendingHello
  | sentHello
  | sendingPassword
  | sentPassword
  | sendingRequest
  | sentRequest
  | receivedReplyHeader
  | up
  deriving DecidableEq, Repr

/-- `BSocksClient`: of the packet that is being sent what is left, and of the message that is being
received what is there and how long it is. The last four fields are ghosts: what has gone each way
before the client was up, and since. -/
structure SocksClient where
  authInfo : List AuthInfo
  destAddr : BAddr
  state : SocksState := .connecting
  sending : Bytes := []
  buffer : Bytes := []
  recvTotal : Nat := 0
  sent : Bytes := []
  got : Bytes := []
  userSent : Bytes := []
  userGot : Bytes := []
  deriving DecidableEq, Repr

/-- `BSOCKSCLIENT_EVENT_ERROR`, `BSOCKSCLIENT_EVENT_ERROR_CLOSED`, or an assertion has failed. -/
inductive SocksEnded where
  | error
  | closed
  | asserted
  deriving DecidableEq, Repr

namespace SocksClient

/-- `reserve_buffer`. -/
def reserveBuffer (reserved : Bool) (rest : SocksClient) : Except SocksEnded SocksClient :=
  if reserved then .ok rest else .error .error

/-- `start_receive`. -/
def startReceive (c : SocksClient) (total : Nat) (state : SocksState) : SocksClient :=
  { c with buffer := [], recvTotal := total, state }

/-- `PacketPassInterface_Sender_Send`. -/
def send (c : SocksClient) (packet : Bytes) (state : SocksState) : SocksClient := { c with sending := packet, state }

/-- The greeting. -/
def hello (c : SocksClient) : Bytes := [5, UInt8.ofNat c.authInfo.length] ++ c.authInfo.map AuthInfo.type

/-- The password packet. -/
def passwordPacket (username password : Bytes) : Bytes :=
  [1, UInt8.ofNat username.length] ++ username ++ [UInt8.ofNat password.length] ++ password

/-- The request. -/
def request (c : SocksClient) : Bytes :=
  match c.destAddr with
  | .ipv4 addr => [5, 1, 0, 1] ++ be32 addr.ip.toNat ++ be16 addr.port.toNat
  | .ipv6 ip port => [5, 1, 0, 4] ++ ip.toList ++ be16 port.toNat

/-- `connector_handler`; `connected` is what `BConnection_Init` returns. -/
def connectorHandler (c : SocksClient) (isError connected reserved : Bool) : Except SocksEnded SocksClient :=
  if c.state ≠ .connecting then .error .asserted
  else if isError then .error .error
  else if !connected then .error .error
  else if c.authInfo.length = 0 ∨ 255 < c.authInfo.length then .error .error
  else reserveBuffer reserved (c.send c.hello .sendingHello)

/-- `connection_handler`. -/
def connectionHandler (c : SocksClient) (recvClosed : Bool) : Except SocksEnded SocksClient :=
  if c.state = .connecting then .error .asserted
  else if c.state = .up ∧ recvClosed = true then .error .closed
  else .error .error

/-- `auth_finished`. -/
def authFinished (c : SocksClient) (reserved : Bool) : Except SocksEnded SocksClient :=
  reserveBuffer reserved (c.send c.request .sendingRequest)

/-- The lengths that a password packet can hold. -/
def passwordFits (username password : Bytes) : Bool :=
  !(username.length = 0 || 255 < username.length || password.length = 0 || 255 < password.length)

/-- `recv_handler_done` on a message that is complete, so that the bytes it looks at are there. -/
def received (c : SocksClient) (reserved : Bool) : Except SocksEnded SocksClient :=
  match c.state with
  | .sentHello =>
    if c.buffer.getD 0 0 ≠ 5 then .error .error
    else match c.authInfo.find? fun ai => ai.type == c.buffer.getD 1 0 with
      | Option.none => .error .error
      | some .none => c.authFinished reserved
      | some (.password username password) =>
        if !passwordFits username password then .error .error
        else reserveBuffer reserved (c.send (passwordPacket username password) .sendingPassword)
  | .sentRequest =>
    if c.buffer.getD 0 0 ≠ 5 then .error .error
    else if c.buffer.getD 1 0 ≠ 0 then .error .error
    else if c.buffer.getD 3 0 = 1 then .ok (c.startReceive 6 .receivedReplyHeader)
    else if c.buffer.getD 3 0 = 4 then .ok (c.startReceive 18 .receivedReplyHeader)
    else .error .error
  | .sentPassword =>
    if c.buffer.getD 0 0 ≠ 1 then .error .error
    else if c.buffer.getD 1 0 ≠ 0 then .error .error
    else c.authFinished reserved
  | .receivedReplyHeader => .ok { c with buffer := [], state := .up }
  | _ => .error .asserted

/-- `recv_handler_done`. -/
def recvHandlerDone (c : SocksClient) (data : Bytes) (reserved : Bool) : Except SocksEnded SocksClient :=
  if c.recvTotal - c.buffer.length < data.length then .error .asserted
  else
    let c := { c with buffer := c.buffer ++ data, got := c.got ++ data }
    if c.buffer.length < c.recvTotal then .ok c else c.received reserved

/-- `send_handler_done`. -/
def sendHandlerDone (c : SocksClient) (reserved : Bool) : Except SocksEnded SocksClient :=
  match c.state with
  | .sendingHello => reserveBuffer reserved (c.startReceive 2 .sentHello)
  | .sendingRequest => reserveBuffer reserved (c.startReceive 4 .sentRequest)
  | .sendingPassword => reserveBuffer reserved (c.startReceive 2 .sentPassword)
  | _ => .error .asserted

/-- `output_handler_done` of the `PacketStreamSender`. -/
def outputHandlerDone (c : SocksClient) (len : Nat) (reserved : Bool) : Except SocksEnded SocksClient :=
  if len = 0 ∨ c.sending.length < len then .error .asserted
  else
    let c := { c with sent := c.sent ++ c.sending.take len, sending := c.sending.drop len }
    if c.sending ≠ [] then .ok c else c.sendHandlerDone reserved

end SocksClient

inductive SocksEvent where
  | connector (isError connected reserved : Bool)
  | connection (recvClosed : Bool)
  | recvDone (data : Bytes) (reserved : Bool)
  | sendDone (len : Nat) (reserved : Bool)
  | userSent (data : Bytes)
  | userGot (data : Bytes)

/-- A message is being received. -/
def SocksState.receives : SocksState → Bool
  | .sentHello | .sentPassword | .sentRequest | .receivedReplyHeader => true
  | _ => false

/-- The connection gives what was asked for, or less, and takes what it was given, or less. -/
def socksEnabled (c : SocksClient) : SocksEvent → Bool
  | .connector .. => c.state = .connecting
  | .connection _ => c.state ≠ .connecting
  | .recvDone data _ => c.state.receives && 0 < data.length && data.length ≤ c.recvTotal - c.buffer.length
  | .sendDone len _ => 0 < len && len ≤ c.sending.length
  | .userSent data | .userGot data => c.state = .up && 0 < data.length

def socksFire (c : SocksClient) : SocksEvent → Except SocksEnded SocksClient
  | .connector isError connected reserved => c.connectorHandler isError connected reserved
  | .connection recvClosed => c.connectionHandler recvClosed
  | .recvDone data reserved => c.recvHandlerDone data reserved
  | .sendDone len reserved => c.outputHandlerDone len reserved
  | .userSent data => .ok { c with userSent := c.userSent ++ data }
  | .userGot data => .ok { c with userGot := c.userGot ++ data }

def socksMachine : Machine SocksClient SocksEvent SocksEnded where
  enabled := socksEnabled
  fire := socksFire

/-- `BSocksClient_Init`. -/
def socksInit (authInfo : List AuthInfo) (destAddr : BAddr) : SocksClient := { authInfo, destAddr }

end Shadowsocks.Tun2socks
