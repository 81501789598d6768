import Shadowsocks.Tun2socks.PacketBuffer
import Shadowsocks.Tun2socks.Table

/-!
# What a session sends

`connection_send` writes into the buffer that a `BufferWriter` has been given, and jobs of the reactor move
the packet into the `PacketBuffer` and ask for the next one. The queue of a connection is what these hold.

`connection_send` compares no length: it copies header and payload to where the writer's buffer
begins. The ring has always room for a packet of its MTU there, so `Within` is a condition on
longer packets only.
-/

namespace Shadowsocks.Tun2socks
set_option autoImplicit false
open Lib

/-- The state of a `PacketRecvInterface`, with `job_operation_data` or `job_done_len`. -/
inductive RecvState where
  | none
  | operationPending (data : Nat)
  | busy
  | donePending (len : Nat)
  deriving DecidableEq, Repr

/-- `udp_send_writer`, a `BufferWriter`, and `udp_send_buffer`, which receives from it. The last field is a ghost: the packets that were
written. -/
structure UdpSend where
  buffer : PacketBuffer
  state : RecvState
  outHave : Bool := false
  out : Nat := 0
  written : List Bytes := []

inductive SendEvent where
  | write (packet : Bytes)
  | jobOperation
  | jobDone
  | outputDone

namespace UdpSend

/-- `PacketRecvInterface_Receiver_Recv`, if there is a destination. -/
def receiverRecv (t : UdpSend) (dest : Option Nat) : Except Fault UdpSend :=
  match dest with
  | none => .ok t
  | some data => if t.state = .none then .ok { t with state := .operationPending data } else .error .abort

def init (buffer : Bytes) (blocks inputMtu : Nat) : UdpSend where
  buffer := .init buffer blocks inputMtu
  state := (PacketBuffer.init buffer blocks inputMtu).receiving.elim .none .operationPending

/-- `BufferWriter_StartPacket`, what `connection_send` copies, and `BufferWriter_EndPacket` with `PacketRecvInterface_Done`. -/
def write (t : UdpSend) (packet : Bytes) : Except Fault UdpSend :=
  if t.outHave = false then .ok t else do
    let buffer ← store t.buffer.buf.buffer t.out packet
    if t.state = .busy then
      pure { t with
        buffer := { t.buffer with buf := { t.buffer.buf with buffer } }
        state := .donePending packet.length
        outHave := false
        written := t.written ++ [packet] }
    else .error .abort

/-- `_PacketRecvInterface_job_operation` and the writer's `output_handler_recv`. -/
def jobOperation (t : UdpSend) : Except Fault UdpSend :=
  match t.state with
  | .operationPending data => if t.outHave then .error .abort else .ok { t with state := .busy, outHave := true, out := data }
  | _ => .error .abort

/-- `_PacketRecvInterface_job_done` and the buffer's `input_handler_done`. -/
def jobDone (t : UdpSend) : Except Fault UdpSend :=
  match t.state with
  | .donePending len => do
    let buffer ← t.buffer.inputHandlerDone len
    { t with buffer, state := .none }.receiverRecv (PacketBuffer.space buffer.buf buffer.inputMtu)
  | _ => .error .abort

/-- The socket is done with a packet: `output_handler_done`. -/
def outputDone (t : UdpSend) : Except Fault UdpSend := do
  let buffer ← t.buffer.outputHandlerDone
  { t with buffer }.receiverRecv
    (if (PacketBuffer.space t.buffer.buf t.buffer.inputMtu).isNone then PacketBuffer.space buffer.buf buffer.inputMtu else none)

end UdpSend

/-- The session writes, a job runs or the socket is done with a packet, in any order. -/
def udpSendMachine : Machine UdpSend SendEvent Fault where
  enabled t e :=
    match e with
    | .write _ => true
    | .jobOperation => match t.state with | .operationPending _ => true | _ => false
    | .jobDone => match t.state with | .donePending _ => true | _ => false
    | .outputDone => t.buffer.sending.isSome
  fire t e :=
    match e with
    | .write packet => t.write packet
    | .jobOperation => t.jobOperation
    | .jobDone => t.jobDone
    | .outputDone => t.outputDone

/-- How many bytes are free behind the writer's buffer, if it has one. -/
def UdpSend.room (t : UdpSend) : Option Nat := if t.outHave then t.buffer.buf.input.map Prod.snd else none

/-- A packet is no longer than what is free in the ring where it is written. `connection_send` compares nothing, and the ring
has space for at least a packet of the MTU there. -/
def Within (t : UdpSend) : SendEvent → Prop
  | .write packet => ∀ avail ∈ t.room, packet.length ≤ avail
  | _ => True

instance (t : UdpSend) (e : SendEvent) : Decidable (Within t e) :=
  match e with
  | .write _ => inferInstanceAs (Decidable (∀ avail ∈ t.room, _))
  | .jobOperation | .jobDone | .outputDone => inferInstanceAs (Decidable True)

/-- Where the interface stands, and what has been written but not received. -/
inductive Asked (t : UdpSend) : List Bytes → Prop where
  | none (state : t.state = .none) (full : t.buffer.receiving = none) (have_ : t.outHave = false) : Asked t []
  | operation {data : Nat} (state : t.state = .operationPending data) (dest : t.buffer.receiving = some data) (have_ : t.outHave = false) :
      Asked t []
  | busy (state : t.state = .busy) (dest : t.buffer.receiving = some t.out) (have_ : t.outHave = true) : Asked t []
  | done {data avail : Nat} {packet : Bytes} (state : t.state = .donePending packet.length) (dest : t.buffer.receiving = some data)
      (have_ : t.outHave = false) (input : t.buffer.buf.input = some (data, avail)) (fits : packet.length ≤ avail)
      (stored : window t.buffer.buf.buffer data packet.length = packet) : Asked t [packet]

/-- The packets that were written and not sent are in the ring, the last one possibly still behind it. -/
structure Writing (num : Nat) (t : UdpSend) (as bs pending : List Bytes) : Prop where
  queued : Queued num t.buffer as bs
  asked : Asked t pending
  written : t.written = t.buffer.received ++ pending

section
variable {num : Nat} {t t' : UdpSend} {as bs pending : List Bytes}

theorem Writing.write (writing : Writing num t as bs pending) {packet : Bytes} (within : Within t (.write packet)) :
    ∃ t' pending', t.write packet = .ok t' ∧ Writing num t' as bs pending' ∧ t'.buffer.sent = t.buffer.sent ∧
      t'.written = t.written ++ if t.outHave then [packet] else [] := by
  cases have_ : t.outHave with
  | false =>
    refine ⟨t, pending, ?_, writing, rfl, by simp⟩
    rw [UdpSend.write, if_pos have_]
  | true =>
    cases writing.asked with
    | none state full no => cases no.symm.trans have_
    | operation state dest no => cases no.symm.trans have_
    | done state dest no => cases no.symm.trans have_
    | busy state dest =>
      have fits : ∀ input ∈ t.buffer.buf.input, packet.length ≤ input.2 := fun input there => by
        refine within input.2 ?_
        rw [UdpSend.room, if_pos have_, Option.mem_def.mp there]
        rfl
      obtain ⟨avail, input, -⟩ := space_eq_some.mp (writing.queued.receiving ▸ dest)
      obtain ⟨inside, stored, queued⟩ := @Queued.store _ _ _ _ writing.queued _ 0 packet dest
        fun input there => by rw [Nat.zero_add]; exact fits input there
      rw [Nat.add_zero] at inside stored queued
      have done : t.write packet = .ok { t with
          buffer := { t.buffer with buf := { t.buffer.buf with buffer := splice t.buffer.buf.buffer t.out packet } }
          state := .donePending packet.length
          outHave := false
          written := t.written ++ [packet] } := by
        rw [UdpSend.write, if_neg (by rw [have_]; exact Bool.noConfusion), stored, ok_bind, if_pos state]
        rfl
      refine ⟨_, [packet], done, ⟨queued, .done rfl dest rfl input (fits _ input) ?_, ?_⟩, rfl, rfl⟩
      · exact window_splice_self _ _ _ (by omega)
      · dsimp only
        rw [writing.written, List.append_nil]

theorem Writing.jobOperation (writing : Writing num t as bs pending) {data : Nat} (state : t.state = .operationPending data) :
    ∃ t', t.jobOperation = .ok t' ∧ Writing num t' as bs pending ∧ t'.buffer = t.buffer ∧ t'.written = t.written ∧ t'.outHave = true := by
  cases writing.asked with
  | none state' => cases state.symm.trans state'
  | busy state' => cases state.symm.trans state'
  | done state' => cases state.symm.trans state'
  | operation state' dest have_ =>
    cases state.symm.trans state'
    refine ⟨{ t with state := .busy, outHave := true, out := data }, ?_, ⟨writing.queued, .busy rfl dest rfl, writing.written⟩, rfl, rfl, rfl⟩
    rw [UdpSend.jobOperation, state]
    exact if_neg (by rw [have_]; exact Bool.noConfusion)

/-- The buffer asks for the next packet if there is space. -/
theorem asked_receiverRecv {dest : Option Nat} (state : t.state = .none) (have_ : t.outHave = false)
    (receiving : t.buffer.receiving = dest) :
    ∃ t', t.receiverRecv dest = .ok t' ∧ Asked t' [] ∧ t'.buffer = t.buffer ∧ t'.written = t.written := by
  cases dest with
  | none => exact ⟨t, rfl, .none state receiving have_, rfl, rfl⟩
  | some data => exact ⟨{ t with state := .operationPending data }, if_pos state, .operation rfl receiving have_, rfl, rfl⟩

theorem Writing.jobDone (writing : Writing num t as bs pending) {len : Nat} (state : t.state = .donePending len) :
    ∃ t' as' bs', t.jobDone = .ok t' ∧ Writing num t' as' bs' [] ∧ t'.buffer.sent = t.buffer.sent ∧ t'.written = t.written := by
  cases writing.asked with
  | none state' => cases state.symm.trans state'
  | busy state' => cases state.symm.trans state'
  | operation state' => cases state.symm.trans state'
  | @done data avail packet state' dest have_ input fits stored =>
    cases state.symm.trans state'
    obtain ⟨c, as', bs', -, done, queued⟩ := writing.queued.inputDone dest fun input' there => by
      cases input.symm.trans there
      exact fits
    rw [stored] at done queued
    generalize made : ({ t.buffer with
      buf := c
      receiving := PacketBuffer.space c t.buffer.inputMtu
      sending := if t.buffer.buf.output.isNone then c.output else t.buffer.sending
      received := t.buffer.received ++ [packet] } : PacketBuffer) = buffer at done queued
    obtain ⟨t', asks, asked, same, written⟩ := @asked_receiverRecv { t with buffer, state := .none } _ rfl have_ queued.receiving
    refine ⟨t', as', bs', ?_, ⟨same ▸ queued, asked, ?_⟩, ?_, written⟩
    · rw [UdpSend.jobDone, state]
      dsimp only
      rw [done, ok_bind]
      exact asks
    · rw [written, same, List.append_nil, ← made]
      exact writing.written
    · rw [same, ← made]

theorem Writing.outputDone (writing : Writing num t as bs pending) (on : t.buffer.sending.isSome = true) :
    ∃ t' as' bs', t.outputDone = .ok t' ∧ Writing num t' as' bs' pending ∧ (∃ p, t'.buffer.sent = t.buffer.sent ++ [p]) ∧
      t'.written = t.written := by
  obtain ⟨buffer, as', bs', done, queued, sent, received, -, memory, kept, more⟩ := writing.queued.outputDone on
  have asks : t.outputDone = { t with buffer }.receiverRecv (if (PacketBuffer.space t.buffer.buf t.buffer.inputMtu).isNone then
      PacketBuffer.space buffer.buf buffer.inputMtu else none) := by
    rw [UdpSend.outputDone, done]
    rfl
  rw [← writing.queued.receiving] at asks
  have keeps : ∀ dest, t.buffer.receiving = some dest → t.outputDone = .ok { t with buffer } := by
    intro dest here
    rw [asks, here]
    rfl
  have written : t.written = buffer.received ++ pending := by
    rw [received]
    exact writing.written
  cases writing.asked with
  | none state full have_ =>
    rw [full] at asks
    obtain ⟨t', asked, stands, same, written'⟩ := @asked_receiverRecv { t with buffer } _ state have_ queued.receiving
    refine ⟨t', as', bs', asks.trans asked, ⟨same ▸ queued, stands, ?_⟩, ?_, written'⟩
    · rw [written', same]
      exact written
    · rw [same]
      exact sent
  | operation state dest have_ => exact ⟨_, as', bs', keeps _ dest, ⟨queued, .operation state (kept _ dest) have_, written⟩, sent, rfl⟩
  | busy state dest have_ => exact ⟨_, as', bs', keeps _ dest, ⟨queued, .busy state (kept _ dest) have_, written⟩, sent, rfl⟩
  | done state dest have_ input fits stored =>
    obtain ⟨avail, wider, input⟩ := more _ _ input
    refine ⟨_, as', bs', keeps _ dest, ⟨queued, .done state (kept _ dest) have_ input (Nat.le_trans fits wider) ?_, written⟩, sent, rfl⟩
    dsimp only
    rw [memory]
    exact stored

/-- Every step keeps the queue, and none leaves the buffer. -/
theorem Writing.step (writing : Writing num t as bs pending) {e : SendEvent} (on : udpSendMachine.enabled t e = true) (within : Within t e) :
    ∃ t' as' bs' pending', udpSendMachine.fire t e = .ok t' ∧ Writing num t' as' bs' pending' := by
  cases e with
  | write packet =>
    obtain ⟨t', pending', done, writing', -⟩ := writing.write within
    exact ⟨t', as, bs, pending', done, writing'⟩
  | jobOperation =>
    simp only [udpSendMachine] at on
    split at on
    next state =>
      obtain ⟨t', done, writing', -⟩ := writing.jobOperation state
      exact ⟨t', as, bs, pending, done, writing'⟩
    · cases on
  | jobDone =>
    simp only [udpSendMachine] at on
    split at on
    next state =>
      obtain ⟨t', as', bs', done, writing', -⟩ := writing.jobDone state
      exact ⟨t', as', bs', [], done, writing'⟩
    · cases on
  | outputDone =>
    obtain ⟨t', as', bs', done, writing', -⟩ := writing.outputDone on
    exact ⟨t', as', bs', pending, done, writing'⟩

theorem writing_init {buffer : Bytes} {blocks inputMtu : Nat} (enough : calcBlocks inputMtu num = some blocks)
    (memory : buffer.length = 4 * blocks) (small : 4 * blocks < 2 ^ 31) : Writing num (.init buffer blocks inputMtu) [] [] [] := by
  have queued := queued_init enough memory small
  refine ⟨queued, ?_, queued.received⟩
  cases here : (PacketBuffer.init buffer blocks inputMtu).receiving with
  | none => exact .none (by rw [UdpSend.init, here]; rfl) here rfl
  | some data => exact .operation (by rw [UdpSend.init, here]; rfl) here rfl

/-- All that is written and not sent. -/
theorem Writing.held (writing : Writing num t as bs pending) : t.written = t.buffer.sent ++ (as ++ bs ++ pending) := by
  rw [writing.written, writing.queued.received, List.append_assoc]

/-- The jobs have run: the writer has a buffer, or the ring is full. -/
theorem Writing.rest (writing : Writing num t as bs pending) (operation : udpSendMachine.enabled t .jobOperation = false)
    (done : udpSendMachine.enabled t .jobDone = false) : pending = [] ∧ (t.outHave = false → t.buffer.receiving = none) := by
  cases writing.asked with
  | none state full have_ => exact ⟨rfl, fun _ => full⟩
  | operation state => simp [udpSendMachine, state] at operation
  | busy state dest have_ => exact ⟨rfl, fun no => by rw [no] at have_; cases have_⟩
  | done state => simp [udpSendMachine, state] at done

/-- A buffer that the writer has has space for a packet of the MTU. -/
theorem Writing.room (writing : Writing num t as bs pending) : ∀ avail ∈ t.room, t.buffer.inputMtu ≤ avail := by
  intro avail there
  cases have_ : t.outHave with
  | false => simp [UdpSend.room, have_] at there
  | true =>
    cases writing.asked with
    | none state full no => cases no.symm.trans have_
    | operation state dest no => cases no.symm.trans have_
    | done state dest no => cases no.symm.trans have_
    | busy state dest =>
      obtain ⟨avail', input, wide⟩ := space_eq_some.mp (writing.queued.receiving ▸ dest)
      simp only [UdpSend.room, have_, if_true, input, Option.map_some, Option.mem_def, Option.some.injEq] at there
      exact there ▸ wide

/-- The MTU is never changed. -/
theorem fire_inputMtu {e : SendEvent} (fired : udpSendMachine.fire t e = .ok t') : t'.buffer.inputMtu = t.buffer.inputMtu := by
  have asks : ∀ {t t' : UdpSend} {dest : Option Nat}, t.receiverRecv dest = .ok t' → t'.buffer = t.buffer := by
    intro t t' dest done
    unfold UdpSend.receiverRecv at done
    split at done
    · cases done
      rfl
    · split at done
      · cases done
        rfl
      · cases done
  cases e with
  | write packet =>
    change t.write packet = .ok t' at fired
    unfold UdpSend.write at fired
    split at fired
    · cases fired
      rfl
    · obtain ⟨buffer, -, fired⟩ := bind_eq_ok.mp fired
      split at fired
      · cases fired
        rfl
      · cases fired
  | jobOperation =>
    change t.jobOperation = .ok t' at fired
    unfold UdpSend.jobOperation at fired
    split at fired
    · split at fired
      · cases fired
      · cases fired
        rfl
    · cases fired
  | jobDone =>
    change t.jobDone = .ok t' at fired
    unfold UdpSend.jobDone at fired
    split at fired
    · obtain ⟨buffer, received, fired⟩ := bind_eq_ok.mp fired
      rw [asks fired]
      obtain ⟨dest, -, received⟩ := bind_eq_ok.mp received
      obtain ⟨packet, -, received⟩ := bind_eq_ok.mp received
      obtain ⟨buf, -, received⟩ := bind_eq_ok.mp received
      cases received
      rfl
    · cases fired
  | outputDone =>
    obtain ⟨buffer, consumed, fired⟩ := bind_eq_ok.mp (show t.outputDone = .ok t' from fired)
    rw [asks fired]
    obtain ⟨first, -, consumed⟩ := bind_eq_ok.mp consumed
    obtain ⟨packet, -, consumed⟩ := bind_eq_ok.mp consumed
    obtain ⟨buf, -, consumed⟩ := bind_eq_ok.mp consumed
    cases consumed
    rfl

end

/-- The queue of a connection is what is held for it. -/
def Carries (t : UdpSend) (con : Connection) : Prop := t.written = t.buffer.sent ++ con.queue.map Packet.bytes

section
variable {num : Nat} {t : UdpSend} {as bs pending : List Bytes}
variable {C : Config} {s s' : State} {id : Nat} {con : Connection} {request : Request}

/-- `connection_send` puts the packet into the queue exactly if the writer has a buffer, and the space behind it is what
`BufferWriter_StartPacket` has found. -/
theorem Writing.connectionSend (writing : Writing num t as bs pending) (carries : Carries t con) (here : s.heap.cell id = some con)
    (within : Within t (.write (socksUdpHeader con.conaddr.remoteAddr ++ request.data)))
    (done : s.connectionSend id request t.room = .ok s') :
    ∃ t' pending' con', t.write (socksUdpHeader con.conaddr.remoteAddr ++ request.data) = .ok t' ∧ Writing num t' as bs pending' ∧
      s'.heap.cell id = some con' ∧ Carries t' con' := by
  obtain ⟨t', pending', wrote, writing', sent, written⟩ := writing.write within
  rw [State.connectionSend, State.deref_eq_ok.mpr here, ok_bind] at done
  cases room : t.room with
  | none =>
    rw [room] at done
    cases done
    -- the writer has no buffer, so nothing has been written
    have have_ : t.outHave = false := by
      by_contra some_
      have have_ := Bool.eq_true_of_not_eq_false some_
      cases writing.asked with
      | none state full no => cases no.symm.trans have_
      | operation state dest no => cases no.symm.trans have_
      | done state dest no => cases no.symm.trans have_
      | busy state dest =>
        obtain ⟨avail, input, -⟩ := space_eq_some.mp (writing.queued.receiving ▸ dest)
        simp [UdpSend.room, have_, input] at room
    rw [have_, if_neg Bool.noConfusion, List.append_nil] at written
    refine ⟨t', pending', con, wrote, writing', here, ?_⟩
    rw [Carries, written, sent]
    exact carries
  | some avail =>
    rw [room] at done
    cases done
    have have_ : t.outHave = true := by
      by_contra no
      simp [UdpSend.room, no] at room
    refine ⟨t', pending', _, wrote, writing', by rw [Heap.cell_modify_self, here]; rfl, ?_⟩
    rw [have_, if_pos rfl, carries] at written
    rw [Carries, written, sent]
    simp

/-- The packet that the socket is done with is the first one of the queue. -/
theorem Writing.sendFirst (writing : Writing num t as bs pending) (on : t.buffer.sending.isSome = true) (carries : Carries t con) (ok : Bool)
    (here : s.heap.cell id = some con) :
    ∃ t' as' bs' s' con', t.outputDone = .ok t' ∧ Writing num t' as' bs' pending ∧ s.sendFirst id ok = .ok s' ∧
      s'.heap.cell id = some con' ∧ Carries t' con' := by
  obtain ⟨t', as', bs', done, writing', ⟨p, sent⟩, written⟩ := writing.outputDone on
  have first : con.queue.map Packet.bytes = p :: (as' ++ bs' ++ pending) := by
    have held := writing'.held
    rw [written, carries, sent, List.append_assoc] at held
    exact List.append_cancel_left held
  cases queue : con.queue with
  | nil =>
    rw [queue] at first
    cases first
  | cons packet rest =>
    have left : s.sendFirst id ok = .ok { s with heap := s.heap.modify id fun con =>
        { con with queue := rest, sent := if ok then con.sent ++ [packet] else con.sent } } := by
      rw [State.sendFirst, State.deref_eq_ok.mpr here, ok_bind, queue]
      rfl
    refine ⟨t', as', bs', _, _, done, writing', left, by rw [Heap.cell_modify_self, here]; rfl, ?_⟩
    rw [queue, List.map_cons] at first
    rw [Carries, writing'.held]
    exact congrArg _ (List.cons.inj first).2.symm

end

end Shadowsocks.Tun2socks
