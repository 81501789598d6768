import Shadowsocks.Lib.Bytes
import Shadowsocks.Lib.Machine

/-!
# A TCP connection of tun2socks

`struct tcp_client` between a connection of lwIP and its `BSocksClient`, as a machine. Its events
are the callbacks of both; what the calls of lwIP return is chosen with the event (`Lwip`). The
jobs that `SYNC_COMMIT` runs inside of a callback are events behind it, since the callback does
nothing to the client after them.
-/

namespace Shadowsocks.Tun2socks
set_option autoImplicit false
open Lib

/-- `TCP_WND`. -/
def tcpWnd : Nat := 4 * 1460

/-- `CLIENT_SOCKS_RECV_BUF_SIZE`. -/
def clientSocksRecvBufSize : Nat := 8192

/-- What `tcp_write` returns: `ERR_OK`, `ERR_MEM` or another error. -/
inductive WriteResult where
  | ok
  | mem
  | failed
  deriving DecidableEq, Repr

/-- One round of the loop that queues data: `tcp_sndbuf` and then `tcp_write`. -/
structure Write where
  sndbuf : Nat
  result : WriteResult := .ok
  deriving DecidableEq, Repr

/-- What lwIP returns while a callback runs. Behind the last of `writes` the send buffer is full. -/
structure Lwip where
  writes : List Write := []
  output : Bool := true
  close : Bool := true

/-- What has become of the pcb. -/
inductive PcbEnd where
  | closed
  | aborted
  | lost
  deriving DecidableEq, Repr

/-- Why the client has no pcb any more. -/
inductive ClientEnd where
  | device
  | lwip
  | failed
  | afterSocks
  deriving DecidableEq, Repr

/-- Why the client has no `BSocksClient` any more. -/
inductive SocksEnd where
  | failed
  | closed
  | drained
  | idle
  deriving DecidableEq, Repr

/-- `struct tcp_client`, of the two buffers what is used of them; `recvBuf` is none where
`socks_recv_buf_used` is -1. Then which callbacks are set, and what the two interfaces of the
`BSocksClient` are doing. The others are ghosts: the bytes that were taken from the pcb, given to
SOCKS, got from SOCKS and given to the pcb, how many were confirmed on either side, and the ends. -/
structure TcpClient where
  clientClosed : Bool := false
  buf : Bytes := []
  socksUp : Bool := false
  socksClosed : Bool := false
  recvBuf : Option Bytes := none
  recvBufSent : Nat := 0
  recvWaiting : Bool := false
  tcpPending : Nat := 0
  recvSet : Bool := true
  sentSet : Bool := false
  sending : Option Nat := none
  receiving : Bool := false
  fromClient : Bytes := []
  toSocks : Bytes := []
  fromSocks : Bytes := []
  toClient : Bytes := []
  recved : Nat := 0
  acked : Nat := 0
  pcbEnd : Option PcbEnd := none
  clientEnd : Option ClientEnd := none
  socksEnd : Option SocksEnd := none

/-- A callback leaves the client alive, or it has removed it, or an assertion has failed. -/
inductive Gone where
  | removed (c : TcpClient)
  | asserted

/-- `ASSERT`. -/
def ensure {α : Type} (p : Prop) [Decidable p] (rest : Except Gone α) : Except Gone α := if p then rest else .error .asserted

theorem ensure_of {α : Type} {p : Prop} [Decidable p] (holds : p) (rest : Except Gone α) : ensure p rest = rest := if_pos holds

namespace TcpClient

/-- `client_dealloc`. -/
def dealloc (c : TcpClient) : Except Gone TcpClient :=
  ensure (c.clientClosed = true) (ensure (c.socksClosed = true) (.error (.removed c)))

/-- How many sides are up. -/
def sides (c : TcpClient) : Nat := (!c.clientClosed).toNat + (!c.socksClosed).toNat

theorem sides_clientClosed {c : TcpClient} (up : ¬ c.clientClosed = true) (why : ClientEnd) :
    2 * ({ c with clientClosed := true, clientEnd := some why } : TcpClient).sides < 2 * c.sides := by
  simp only [Bool.not_eq_true] at up
  simp only [sides, up, Bool.not_true, Bool.not_false, Bool.toNat_true, Bool.toNat_false]
  omega

/-- The `BSocksClient` is freed, and what it was doing with it. -/
def withoutSocks (c : TcpClient) (why : SocksEnd) : TcpClient :=
  { c with recvSet := c.recvSet && !(c.socksUp && !c.clientClosed), sending := none, receiving := false, socksClosed := true
           socksEnd := some why }

/-- The pcb without its callbacks. -/
def withoutPcb (c : TcpClient) (how : PcbEnd) : TcpClient :=
  { c with recvSet := false, sentSet := false, pcbEnd := some how }

theorem sides_withoutSocks {c : TcpClient} (up : ¬ c.socksClosed = true) (why : SocksEnd) :
    2 * (c.withoutSocks why).sides + 1 < 2 * c.sides := by
  simp only [Bool.not_eq_true] at up
  simp only [sides, withoutSocks, up, Bool.not_true, Bool.not_false, Bool.toNat_true, Bool.toNat_false]
  omega

mutual

/-- `client_handle_freed_client`. -/
def handleFreedClient (c : TcpClient) (why : ClientEnd) (lwip : Lwip) : Except Gone TcpClient :=
  if _up : ¬ c.clientClosed = true then
    if c.buf ≠ [] ∧ ¬ c.socksClosed = true then .ok { c with clientClosed := true, clientEnd := some why }
    else if ¬ c.socksClosed = true then freeSocks { c with clientClosed := true, clientEnd := some why } .idle lwip
    else dealloc { c with clientClosed := true, clientEnd := some why }
  else .error .asserted
termination_by 2 * c.sides
decreasing_by exact sides_clientClosed _up why

/-- `client_free_client`. -/
def freeClient (c : TcpClient) (why : ClientEnd) (lwip : Lwip) : Except Gone TcpClient :=
  if ¬ c.clientClosed = true then handleFreedClient (c.withoutPcb (if lwip.close then .closed else .aborted)) why lwip
  else .error .asserted
termination_by 2 * c.sides + 1
decreasing_by exact Nat.lt_succ_self _

/-- `client_free_socks`. -/
def freeSocks (c : TcpClient) (why : SocksEnd) (lwip : Lwip) : Except Gone TcpClient :=
  if _up : ¬ c.socksClosed = true then
    if c.socksUp = true ∧ (c.recvBuf.isSome = true ∨ 0 < c.tcpPending) ∧ ¬ c.clientClosed = true then .ok (c.withoutSocks why)
    else if ¬ c.clientClosed = true then freeClient (c.withoutSocks why) .afterSocks lwip
    else dealloc (c.withoutSocks why)
  else .error .asserted
termination_by 2 * c.sides
decreasing_by exact sides_withoutSocks _up why

end

/-- `client_abort_client`. -/
def abortClient (c : TcpClient) (why : ClientEnd) (lwip : Lwip) : Except Gone TcpClient :=
  ensure (¬ c.clientClosed = true) (handleFreedClient (c.withoutPcb .aborted) why lwip)

/-- `client_err_func`. -/
def errFunc (c : TcpClient) (lwip : Lwip) : Except Gone TcpClient :=
  ensure (¬ c.clientClosed = true) (handleFreedClient (c.withoutPcb .lost) .lwip lwip)

/-- `client_send_to_socks`. -/
def sendToSocks (c : TcpClient) : Except Gone TcpClient :=
  ensure (¬ c.socksClosed = true) (ensure (c.socksUp = true) (ensure (c.buf ≠ []) (.ok { c with sending := some c.buf.length })))

/-- The client with data of the device at the end of its buffer. -/
def heard (c : TcpClient) (data : Bytes) : TcpClient :=
  { c with buf := c.buf ++ data, fromClient := c.fromClient ++ data }

/-- `client_recv_func`; without room for the data it returns `ERR_MEM`, and lwIP keeps them. -/
def recvFunc (c : TcpClient) : Option Bytes → Lwip → Except Gone TcpClient
  | none, lwip => ensure (¬ c.clientClosed = true) (c.freeClient .device lwip)
  | some data, _ =>
    ensure (¬ c.clientClosed = true) <| ensure (data ≠ []) <|
      if tcpWnd - c.buf.length < data.length then .ok c
      else if (c.heard data).buf.length = data.length ∧ c.socksUp = true then (c.heard data).sendToSocks
      else .ok (c.heard data)

/-- `client_socks_recv_initiate`. -/
def socksRecvInitiate (c : TcpClient) : Except Gone TcpClient :=
  ensure (¬ c.clientClosed = true) (ensure (¬ c.socksClosed = true) (ensure (c.socksUp = true) (ensure (c.recvBuf = none)
    (.ok { c with receiving := true }))))

/-- The client with SOCKS up. -/
def raised (c : TcpClient) : TcpClient :=
  { c with recvBuf := none, tcpPending := 0, sentSet := c.sentSet || !c.clientClosed, socksUp := true }

/-- `BSOCKSCLIENT_EVENT_UP` in `client_socks_handler`. -/
def socksEventUp (c : TcpClient) : Except Gone TcpClient :=
  ensure (¬ c.socksClosed = true) <| ensure (¬ c.socksUp = true) <|
    (if c.buf ≠ [] then c.raised.sendToSocks else .ok c.raised) >>= fun c =>
      if ¬ c.clientClosed = true then c.socksRecvInitiate else .ok c

/-- `BSOCKSCLIENT_EVENT_ERROR` and `BSOCKSCLIENT_EVENT_ERROR_CLOSED`. -/
def socksEventError (c : TcpClient) (lwip : Lwip) : Except Gone TcpClient :=
  ensure (¬ c.socksClosed = true) (c.freeSocks .failed lwip)

def socksEventClosed (c : TcpClient) (lwip : Lwip) : Except Gone TcpClient :=
  ensure (¬ c.socksClosed = true) (ensure (c.socksUp = true) (c.freeSocks .closed lwip))

/-- What has been sent leaves the buffer, and is confirmed while there is a pcb. -/
def taken (c : TcpClient) (len : Nat) : TcpClient :=
  { c with
    buf := c.buf.drop len, sending := none, toSocks := c.toSocks ++ c.buf.take len
    recved := if ¬ c.clientClosed = true then c.recved + len else c.recved }

/-- `client_socks_send_handler_done`. -/
def socksSendHandlerDone (c : TcpClient) (len : Nat) (lwip : Lwip) : Except Gone TcpClient :=
  ensure (¬ c.socksClosed = true) <| ensure (c.socksUp = true) <| ensure (c.buf ≠ []) <| ensure (0 < len ∧ len ≤ c.buf.length) <|
    if c.buf.drop len ≠ [] then .ok { c.taken len with sending := some (c.buf.drop len).length }
    else if c.clientClosed = true then (c.taken len).freeSocks .drained lwip
    else .ok (c.taken len)

/-- `tcp_write` has taken `n` bytes. -/
def written (c : TcpClient) (data : Bytes) (n : Nat) : TcpClient :=
  { c with
    recvBufSent := c.recvBufSent + n, tcpPending := c.tcpPending + n, toClient := c.toClient ++ (data.drop c.recvBufSent).take n }

/-- The loop of `client_socks_recv_send_out`, with whether it was left for an error. -/
def queue (data : Bytes) (c : TcpClient) : List Write → TcpClient × Bool
  | [] => (c, true)
  | w :: ws =>
    let toWrite := min (data.length - c.recvBufSent) w.sndbuf
    if toWrite = 0 then (c, true)
    else match w.result with
      | .mem => (c, true)
      | .failed => (c, false)
      | .ok => if c.recvBufSent + toWrite < data.length then queue data (c.written data toWrite) ws else (c.written data toWrite, true)

/-- `client_socks_recv_send_out`, with whether it returned 0. -/
def socksRecvSendOut (c : TcpClient) (lwip : Lwip) : Except Gone (TcpClient × Bool) :=
  ensure (¬ c.clientClosed = true) <| ensure (c.socksUp = true) <|
    match c.recvBuf with
    | none => .error .asserted
    | some data => ensure (c.recvBufSent < data.length) <| ensure (¬ c.recvWaiting = true) <|
      let queued := c.queue data lwip.writes
      let c := queued.1
      if ¬ queued.2 = true then (c.abortClient .failed lwip).map fun c => (c, false)
      else if ¬ lwip.output = true then (c.abortClient .failed lwip).map fun c => (c, false)
      else if c.recvBufSent < data.length then
        if c.tcpPending = 0 then (c.abortClient .failed lwip).map fun c => (c, false)
        else .ok ({ c with recvWaiting := true }, true)
      else .ok ({ c with recvBuf := none }, true)

/-- The buffer with what has been received. -/
def arrived (c : TcpClient) (data : Bytes) : TcpClient :=
  { c with receiving := false, fromSocks := c.fromSocks ++ data, recvBuf := some data, recvBufSent := 0, recvWaiting := false }

/-- `client_socks_recv_handler_done`. -/
def socksRecvHandlerDone (c : TcpClient) (data : Bytes) (lwip : Lwip) : Except Gone TcpClient :=
  ensure (data ≠ [] ∧ data.length ≤ clientSocksRecvBufSize) <| ensure (¬ c.socksClosed = true) <| ensure (c.socksUp = true) <|
    ensure (c.recvBuf = none) <|
      if c.clientClosed = true then .ok { c with receiving := false, fromSocks := c.fromSocks ++ data }
      else (c.arrived data).socksRecvSendOut lwip >>= fun r =>
        if ¬ r.2 = true then .ok r.1
        else if r.1.recvBuf = none then r.1.socksRecvInitiate
        else .ok r.1

/-- `len` bytes have been confirmed by the device. -/
def confirmed (c : TcpClient) (len : Nat) : TcpClient :=
  { c with tcpPending := c.tcpPending - len, acked := c.acked + len }

/-- `client_sent_func`. -/
def sentFunc (c : TcpClient) (len : Nat) (lwip : Lwip) : Except Gone TcpClient :=
  ensure (¬ c.clientClosed = true) <| ensure (c.socksUp = true) <| ensure (0 < len ∧ len ≤ c.tcpPending) <|
    match c.recvBuf with
    | some data => ensure (c.recvWaiting = true) <| ensure (c.recvBufSent < data.length) <|
      ({ c.confirmed len with recvWaiting := false } : TcpClient).socksRecvSendOut lwip >>= fun r =>
        if ¬ r.2 = true then .ok r.1
        else ensure (0 < r.1.tcpPending) <|
          if r.1.recvBuf = none ∧ ¬ r.1.socksClosed = true then r.1.socksRecvInitiate else .ok r.1
    | none =>
      if c.socksClosed = true ∧ (c.confirmed len).tcpPending = 0 then (c.confirmed len).freeClient .afterSocks lwip
      else .ok (c.confirmed len)

end TcpClient

/-! ## The machine -/

inductive TcpEvent where
  | recv (p : Option Bytes)
  | err
  | sent (len : Nat)
  | socksUp
  | socksError
  | socksClosed
  | socksSent (len : Nat)
  | socksReceived (data : Bytes)

/-- The promises of lwIP and of the interfaces: a callback is called while it is set, data are not
empty, no more bytes are confirmed than were queued, no more are sent than there were to send, and
no more are received than there is room for. `BSocksClient` is up once and closed by its peer
only then. -/
def tcpEnabled (c : TcpClient) : TcpEvent → Bool
  | .recv p => c.recvSet && !c.clientClosed && p != some []
  | .err => !c.clientClosed
  | .sent len => c.sentSet && !c.clientClosed && 0 < len && len ≤ c.tcpPending
  | .socksUp => !c.socksClosed && !c.socksUp
  | .socksError => !c.socksClosed
  | .socksClosed => !c.socksClosed && c.socksUp
  | .socksSent len => match c.sending with
    | some n => 0 < len && len ≤ n
    | none => false
  | .socksReceived data => c.receiving && 0 < data.length && data.length ≤ clientSocksRecvBufSize

def tcpFire (c : TcpClient) (lwip : Lwip) : TcpEvent → Except Gone TcpClient
  | .recv p => c.recvFunc p lwip
  | .err => c.errFunc lwip
  | .sent len => c.sentFunc len lwip
  | .socksUp => c.socksEventUp
  | .socksError => c.socksEventError lwip
  | .socksClosed => c.socksEventClosed lwip
  | .socksSent len => c.socksSendHandlerDone len lwip
  | .socksReceived data => c.socksRecvHandlerDone data lwip

/-- From `listener_accept_func` on. -/
def tcpMachine : Machine TcpClient (TcpEvent × Lwip) Gone where
  enabled c e := tcpEnabled c e.1
  fire c e := tcpFire c e.2 e.1

end Shadowsocks.Tun2socks
