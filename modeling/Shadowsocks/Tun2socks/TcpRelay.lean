import Shadowsocks.Tun2socks.TcpClient

/-!
# What a TCP connection of tun2socks carries

In every run the bytes go through in order, in both directions, and are confirmed to the device
when SOCKS has taken them. Whichever side is closed first, what it has already given is carried to
the other one, as long as that one takes it.
-/

namespace Shadowsocks.Tun2socks
set_option autoImplicit false
open Lib

namespace TcpClient
variable {c c' : TcpClient} {lwip : Lwip}

/-- What is in `socks_recv_buf` and has not been queued. -/
def unsent (c : TcpClient) : Bytes := (c.recvBuf.getD []).drop c.recvBufSent

theorem unsent_none (empty : c.recvBuf = none) : c.unsent = [] := by
  rw [unsent, empty, Option.getD_none, List.drop_nil]

/-- What holds whether the pcb is there or not. -/
structure Base (c : TcpClient) : Prop where
  upstream : c.fromClient = c.toSocks ++ c.buf
  room : c.buf.length ≤ tcpWnd
  sending : c.sending.isSome = (c.socksUp && !c.socksClosed && !c.buf.isEmpty)
  offered : ∀ n, c.sending = some n → 0 < n ∧ n ≤ c.buf.length
  inOrder : c.toClient <+: c.fromSocks
  listening : c.receiving = true → c.recvBuf = none ∧ c.socksUp = true ∧ c.socksClosed = false
  asleep : c.socksUp = false → c.socksClosed = false ∧ c.fromSocks = [] ∧ c.toClient = [] ∧ c.acked = 0

/-- What holds while the pcb is there: what SOCKS has sent is queued or waits for the next
confirmation, and if SOCKS is closed, there is one to come. -/
structure Attached (c : TcpClient) : Prop where
  confirmed : c.recved = c.toSocks.length
  downstream : c.fromSocks = c.toClient ++ c.unsent
  acked : c.socksUp = true → c.toClient.length = c.acked + c.tcpPending
  waits : ∀ data, c.recvBuf = some data → c.recvBufSent < data.length ∧ c.recvWaiting = true ∧ 0 < c.tcpPending
  receiving : c.receiving = (c.socksUp && !c.socksClosed && c.recvBuf.isNone)
  draining : c.socksClosed = true → 0 < c.tcpPending
  sentSet : c.sentSet = c.socksUp
  recvSet : c.recvSet = !c.socksClosed
  asleep : c.socksUp = false → c.recvBuf = none
  cause : c.socksClosed = true → c.socksEnd = some .failed ∨ c.socksEnd = some .closed

/-- The invariant between two callbacks. Without the pcb there is something to send to SOCKS. -/
structure Sound (c : TcpClient) : Prop where
  base : c.Base
  attached : c.clientClosed = false → c.Attached
  flushing : c.clientClosed = true → c.socksClosed = false ∧ c.buf ≠ [] ∧ c.clientEnd ≠ some .afterSocks

/-- What a client has carried when it is removed. -/
structure Finished (c : TcpClient) : Prop where
  upstream : c.fromClient = c.toSocks ++ c.buf
  inOrder : c.toClient <+: c.fromSocks
  drained : c.socksEnd = some .drained ∨ c.socksEnd = some .idle → c.toSocks = c.fromClient
  delivered : c.clientEnd = some .afterSocks → c.toClient = c.fromSocks ∧ c.acked = c.fromSocks.length

/-- No assertion fails. -/
def Fine : Except Gone TcpClient → Prop
  | .ok c => c.Sound
  | .error (.removed c) => c.Finished
  | .error .asserted => False

/-- The client is removed once both of its sides are gone. -/
theorem dealloc_eq (closed : c.clientClosed = true) (down : c.socksClosed = true) : c.dealloc = .error (.removed c) := by
  rw [dealloc, ensure_of closed, ensure_of down]

/-- Without its pcb a client ends with its SOCKS side. -/
theorem freeSocks_alone (up : c.socksClosed = false) (closed : c.clientClosed = true) (why : SocksEnd) :
    c.freeSocks why lwip = .error (.removed (c.withoutSocks why)) := by
  rw [freeSocks, dif_pos (by simp [up]), if_neg (by simp [closed]), if_neg (by simp [closed]), dealloc_eq]
  · exact closed
  · rfl

/-- A client that loses its pcb ends, or goes on to flush what it has received. -/
theorem handleFreedClient_eq (up : c.clientClosed = false) (why : ClientEnd) : c.handleFreedClient why lwip =
    if c.socksClosed = true then .error (.removed { c with clientClosed := true, clientEnd := some why })
    else if c.buf = [] then
      .error (.removed (({ c with clientClosed := true, clientEnd := some why } : TcpClient).withoutSocks .idle))
    else .ok { c with clientClosed := true, clientEnd := some why } := by
  rw [handleFreedClient, dif_pos (by simp [up])]
  by_cases down : c.socksClosed = true
  · rw [if_neg (by simp [down]), if_neg (by simp [down]), if_pos down]
    exact dealloc_eq rfl down
  · rw [if_neg down]
    by_cases empty : c.buf = []
    · rw [if_neg (by simp [empty]), if_pos down, if_pos empty]
      exact freeSocks_alone (Bool.not_eq_true _ ▸ down) rfl .idle
    · rw [if_pos ⟨empty, down⟩, if_neg empty]

/-- `client_free_client` takes the callbacks off the pcb and closes it, or aborts it if that
fails. -/
theorem freeClient_eq (up : c.clientClosed = false) (why : ClientEnd) :
    c.freeClient why lwip = (c.withoutPcb (if lwip.close then .closed else .aborted)).handleFreedClient why lwip := by
  rw [freeClient, if_pos (by simp [up])]

/-- Without its SOCKS side a client ends with its pcb. -/
theorem freeClient_alone (up : c.clientClosed = false) (down : c.socksClosed = true) (why : ClientEnd) :
    c.freeClient why lwip = .error (.removed { c.withoutPcb (if lwip.close then .closed else .aborted) with
      clientClosed := true, clientEnd := some why }) := by
  rw [freeClient_eq up, handleFreedClient_eq (c := c.withoutPcb _) up]
  exact if_pos down

/-- A client that loses its SOCKS side goes on while a confirmation is outstanding. -/
theorem freeSocks_attached (up : c.socksClosed = false) (open_ : c.clientClosed = false) (why : SocksEnd) :
    c.freeSocks why lwip = if c.socksUp = true ∧ (c.recvBuf.isSome = true ∨ 0 < c.tcpPending) then .ok (c.withoutSocks why)
      else .error (.removed { (c.withoutSocks why).withoutPcb (if lwip.close then .closed else .aborted) with
        clientClosed := true, clientEnd := some .afterSocks }) := by
  rw [freeSocks, dif_pos (by simp [up])]
  by_cases more : c.socksUp = true ∧ (c.recvBuf.isSome = true ∨ 0 < c.tcpPending)
  · rw [if_pos ⟨more.1, more.2, by simp [open_]⟩, if_pos more]
  · rw [if_neg fun all => more ⟨all.1, all.2.1⟩, if_pos (by simp [open_]), if_neg more]
    exact freeClient_alone (c := c.withoutSocks why) open_ rfl .afterSocks

/-! ## The ends -/

/-- The pcb goes, for another reason than that SOCKS has gone. -/
theorem fine_handleFreedClient (base : c.Base) (open_ : c.clientClosed = false) {why : ClientEnd} (other : why ≠ .afterSocks)
    (how : PcbEnd) (cause : c.socksClosed = true → c.socksEnd = some .failed ∨ c.socksEnd = some .closed) :
    Fine ((c.withoutPcb how).handleFreedClient why lwip) := by
  have notSocks : some why ≠ some ClientEnd.afterSocks := fun same => other (Option.some_inj.mp same)
  rw [handleFreedClient_eq (c := c.withoutPcb how) open_]
  by_cases down : c.socksClosed = true
  · rw [if_pos (show (c.withoutPcb how).socksClosed = true from down)]
    refine ⟨base.upstream, base.inOrder, fun flushed => ?_, fun after => absurd after notSocks⟩
    change c.socksEnd = _ ∨ c.socksEnd = _ at flushed
    rcases cause down with cause | cause <;> rw [cause] at flushed <;> simp at flushed
  · rw [if_neg (show ¬ (c.withoutPcb how).socksClosed = true from down)]
    by_cases empty : c.buf = []
    · rw [if_pos (show (c.withoutPcb how).buf = [] from empty)]
      refine ⟨base.upstream, base.inOrder, fun _ => ?_, fun after => absurd after notSocks⟩
      have all := base.upstream
      rw [empty, List.append_nil] at all
      exact all.symm
    · rw [if_neg (show ¬ (c.withoutPcb how).buf = [] from empty)]
      have up : c.socksClosed = false := by simpa using down
      refine ⟨⟨base.upstream, base.room, base.sending, base.offered, base.inOrder, base.listening, base.asleep⟩, ?_, ?_⟩
      · intro no
        cases no
      · intro _
        exact ⟨up, empty, notSocks⟩

/-- Everything has arrived when nothing waits and nothing is left to be confirmed. -/
theorem Attached.delivered (attached : c.Attached) (base : c.Base)
    (done : c.socksUp = true → c.recvBuf = none ∧ c.tcpPending = 0) : c.toClient = c.fromSocks ∧ c.acked = c.fromSocks.length := by
  cases up : c.socksUp with
  | true =>
    obtain ⟨empty, zero⟩ := done up
    have all := attached.downstream
    rw [unsent_none empty, List.append_nil] at all
    have counted := attached.acked up
    rw [zero, Nat.add_zero, ← all] at counted
    exact ⟨all.symm, counted.symm⟩
  | false =>
    obtain ⟨-, nothing, nothing', zero⟩ := base.asleep up
    rw [nothing, nothing', zero]
    exact ⟨rfl, rfl⟩

/-- SOCKS goes. -/
theorem fine_freeSocks (sound : c.Sound) (up : c.socksClosed = false) {why : SocksEnd} (cause : why = .failed ∨ why = .closed) :
    Fine (c.freeSocks why lwip) := by
  have base := sound.base
  have causes : some why = some SocksEnd.failed ∨ some why = some SocksEnd.closed := by
    rcases cause with rfl | rfl
    · exact .inl rfl
    · exact .inr rfl
  cases open_ : c.clientClosed with
  | true =>
    rw [freeSocks_alone up open_]
    refine ⟨base.upstream, base.inOrder, fun flushed => ?_, fun after => absurd after (sound.flushing open_).2.2⟩
    change some why = _ ∨ some why = _ at flushed
    rcases causes with cause | cause <;> rw [cause] at flushed <;> simp at flushed
  | false =>
    have attached := sound.attached open_
    rw [freeSocks_attached up open_]
    by_cases more : c.socksUp = true ∧ (c.recvBuf.isSome = true ∨ 0 < c.tcpPending)
    · rw [if_pos more]
      have pending : 0 < c.tcpPending := by
        rcases more.2 with waiting | pending
        · obtain ⟨data, held⟩ := Option.isSome_iff_exists.mp waiting
          exact (attached.waits data held).2.2
        · exact pending
      refine ⟨⟨base.upstream, base.room, ?_, ?_, base.inOrder, ?_, ?_⟩, fun _ => ?_, ?_⟩
      · simp [withoutSocks]
      · simp [withoutSocks]
      · simp [withoutSocks]
      · intro asleep
        exact absurd (more.1.symm.trans asleep) (by simp)
      · refine ⟨attached.confirmed, attached.downstream, attached.acked, attached.waits, ?_, fun _ => pending, attached.sentSet, ?_,
          attached.asleep, fun _ => causes⟩
        · simp [withoutSocks]
        · simp [withoutSocks, more.1, open_]
      · intro closed
        exact absurd (open_.symm.trans closed) (by simp)
    · rw [if_neg more]
      refine ⟨base.upstream, base.inOrder, fun flushed => ?_, fun _ => ?_⟩
      · change some why = _ ∨ some why = _ at flushed
        rcases causes with cause | cause <;> rw [cause] at flushed <;> simp at flushed
      · refine attached.delivered base fun on => ⟨?_, ?_⟩
        · exact Option.not_isSome_iff_eq_none.mp fun held => more ⟨on, .inl held⟩
        · exact Nat.eq_zero_of_not_pos fun pending => more ⟨on, .inr pending⟩

/-! ## Towards SOCKS -/

/-- The device may end a client at any time. -/
theorem fine_freeClient_device (sound : c.Sound) (open_ : c.clientClosed = false) : Fine (c.freeClient .device lwip) := by
  rw [freeClient_eq open_]
  exact fine_handleFreedClient sound.base open_ (by simp) _ (sound.attached open_).cause

/-- lwIP may, too; the pcb is gone then, and must not be touched. -/
theorem fine_errFunc (sound : c.Sound) (open_ : c.clientClosed = false) : Fine (c.errFunc lwip) := by
  rw [errFunc, ensure_of (by simp [open_])]
  exact fine_handleFreedClient sound.base open_ (by simp) _ (sound.attached open_).cause

/-- All that is in the buffer is offered to SOCKS. -/
theorem sendToSocks_eq (up : c.socksUp = true) (open_ : c.socksClosed = false) (some_ : c.buf ≠ []) :
    c.sendToSocks = .ok { c with sending := some c.buf.length } := by
  rw [sendToSocks, ensure_of (by simp [open_]), ensure_of up, ensure_of some_]

/-- `client_recv_func`: data, or the end of the device's side. Data are offered to SOCKS at once
if the buffer was empty and SOCKS is up. Otherwise something is on offer already, or will be once
SOCKS is up. -/
theorem fine_recvFunc (sound : c.Sound) {p : Option Bytes} (on : tcpEnabled c (.recv p) = true) : Fine (c.recvFunc p lwip) := by
  simp only [tcpEnabled, Bool.and_eq_true, bne_iff_ne, Bool.not_eq_true'] at on
  obtain ⟨⟨set_, open_⟩, some_⟩ := on
  have base := sound.base
  have attached := sound.attached open_
  have up : c.socksClosed = false := by
    have := attached.recvSet
    rw [set_] at this
    simpa using this.symm
  unfold recvFunc heard
  cases p with
  | none =>
    dsimp only
    rw [ensure_of (by simp [open_])]
    exact fine_freeClient_device sound open_
  | some data =>
    have notEmpty : data ≠ [] := fun no => some_ (congrArg some no)
    dsimp only
    rw [ensure_of (by simp [open_]), ensure_of notEmpty]
    split
    · exact sound
    next room =>
      have length : (c.buf ++ data).length = c.buf.length + data.length := List.length_append
      have grown : c.buf ++ data ≠ [] := fun no => notEmpty (List.append_eq_nil_iff.mp no).2
      have upstream : c.fromClient ++ data = c.toSocks ++ (c.buf ++ data) := by rw [base.upstream, List.append_assoc]
      have fits : (c.buf ++ data).length ≤ tcpWnd := by
        have := base.room
        omega
      have attached' : ∀ d : TcpClient, d = { c with buf := c.buf ++ data, fromClient := c.fromClient ++ data, sending := d.sending } →
          d.Attached := by
        intro d same
        rw [same]
        exact ⟨attached.confirmed, attached.downstream, attached.acked, attached.waits, attached.receiving, attached.draining,
          attached.sentSet, attached.recvSet, attached.asleep, attached.cause⟩
      have flushing : ∀ d : TcpClient, d.clientClosed = false →
          d.clientClosed = true → d.socksClosed = false ∧ d.buf ≠ [] ∧ d.clientEnd ≠ some .afterSocks :=
        fun d still closed => absurd (still.symm.trans closed) Bool.false_ne_true
      split
      next start =>
        rw [sendToSocks_eq (c := { c with buf := c.buf ++ data, fromClient := c.fromClient ++ data }) start.2 up grown]
        refine ⟨⟨upstream, fits, ?_, ?_, base.inOrder, base.listening, base.asleep⟩, fun _ => attached' _ rfl, flushing _ open_⟩
        · simp [start.2, up, grown]
        · intro n same
          cases same
          exact ⟨List.length_pos_iff.mpr grown, Nat.le_refl _⟩
      next idle =>
        refine ⟨⟨upstream, fits, ?_, ?_, base.inOrder, base.listening, base.asleep⟩, fun _ => attached' _ rfl, flushing _ open_⟩
        · show c.sending.isSome = (c.socksUp && !c.socksClosed && !(c.buf ++ data).isEmpty)
          have before := base.sending
          cases on : c.socksUp with
          | false => simpa [on] using before
          | true =>
            have had : c.buf ≠ [] := by
              intro no
              refine idle ⟨?_, on⟩
              show (c.buf ++ data).length = data.length
              rw [no]
              rfl
            rw [on, up, List.isEmpty_eq_false_iff.mpr had] at before
            rw [up, List.isEmpty_eq_false_iff.mpr grown]
            exact before
        · intro n same
          obtain ⟨pos, le⟩ := base.offered n same
          show 0 < n ∧ n ≤ (c.buf ++ data).length
          omega

/-- One receive is started, for which there is a buffer. -/
theorem socksRecvInitiate_eq (open_ : c.clientClosed = false) (up : c.socksUp = true) (alive : c.socksClosed = false)
    (empty : c.recvBuf = none) : c.socksRecvInitiate = .ok { c with receiving := true } := by
  rw [socksRecvInitiate, ensure_of (by simp [open_]), ensure_of (by simp [alive]), ensure_of up, ensure_of empty]

/-- SOCKS is up: what the device has sent so far is offered, and the first receive is started. If
the device is gone by then, its data are flushed and nothing is received. -/
theorem fine_socksEventUp (sound : c.Sound) (on : tcpEnabled c .socksUp = true) : Fine c.socksEventUp := by
  simp only [tcpEnabled, Bool.and_eq_true, Bool.not_eq_true'] at on
  obtain ⟨alive, asleep⟩ := on
  have base := sound.base
  obtain ⟨-, nothing, nothing', zero⟩ := base.asleep asleep
  have idle : c.sending = none := by
    have := base.sending
    rw [asleep] at this
    exact Option.not_isSome_iff_eq_none.mp (by simpa using this)
  rw [socksEventUp, ensure_of (by simp [alive]), ensure_of (by simp [asleep])]
  have started : (if c.buf ≠ [] then c.raised.sendToSocks else .ok c.raised) =
      .ok { c.raised with sending := if c.buf = [] then none else some c.buf.length } := by
    by_cases empty : c.buf = []
    · rw [if_neg (by simp [empty]), if_pos empty, ← idle]
      rfl
    · rw [if_pos empty, if_neg empty]
      exact sendToSocks_eq (c := c.raised) rfl alive empty
  have offered : ∀ n, (if c.buf = [] then none else some c.buf.length) = some n → 0 < n ∧ n ≤ c.buf.length := by
    intro n same
    split at same
    · cases same
    next some_ =>
      cases same
      exact ⟨List.length_pos_iff.mpr some_, Nat.le_refl _⟩
  have isSome : (if c.buf = [] then none else some c.buf.length).isSome = (true && !c.socksClosed && !c.buf.isEmpty) := by
    rw [alive]
    by_cases empty : c.buf = [] <;> simp [empty]
  rw [started]
  change Fine (if ¬ c.clientClosed = true then _ else _)
  cases open_ : c.clientClosed with
  | true =>
    rw [if_neg (by simp)]
    refine ⟨⟨base.upstream, base.room, isSome, offered, base.inOrder, ?_, ?_⟩, ?_, fun _ => ?_⟩
    · intro listening
      exact absurd (asleep.symm.trans (base.listening listening).2.1) Bool.false_ne_true
    · intro no
      cases no
    · intro no
      exact absurd (open_.symm.trans no) (by decide)
    · exact sound.flushing open_
  | false =>
    have attached := sound.attached open_
    rw [if_pos (by simp), socksRecvInitiate_eq]
    refine ⟨⟨base.upstream, base.room, isSome, offered, base.inOrder, ?_, ?_⟩, fun _ => ?_, ?_⟩
    · intro _
      exact ⟨rfl, rfl, alive⟩
    · intro no
      cases no
    · refine ⟨attached.confirmed, ?_, ?_, ?_, ?_, ?_, ?_, attached.recvSet, fun _ => rfl, attached.cause⟩
      · rw [unsent_none rfl]
        show c.fromSocks = c.toClient ++ []
        rw [nothing, nothing', List.append_nil]
      · intro _
        show c.toClient.length = c.acked + 0
        rw [nothing', zero]
        rfl
      · intro data no
        cases no
      · show true = (true && !c.socksClosed && true)
        rw [alive]
        rfl
      · intro no
        exact absurd (alive.symm.trans no) Bool.false_ne_true
      · show (c.sentSet || !c.clientClosed) = true
        rw [open_]
        exact Bool.or_true _
    · intro no
      exact absurd (open_.symm.trans no) Bool.false_ne_true
    · exact open_
    · rfl
    · exact alive
    · rfl

/-- SOCKS has taken `len` bytes; the rest is offered again. -/
theorem Base.taken (base : c.Base) {len : Nat} (up : c.socksUp = true) (alive : c.socksClosed = false)
    {sending : Option Nat} (isSome : sending.isSome = !(c.buf.drop len).isEmpty)
    (offered : ∀ n, sending = some n → 0 < n ∧ n ≤ (c.buf.drop len).length) : Base { c.taken len with sending } := by
  refine ⟨?_, ?_, ?_, offered, base.inOrder, base.listening, ?_⟩
  · show c.fromClient = (c.toSocks ++ c.buf.take len) ++ c.buf.drop len
    rw [List.append_assoc, List.take_append_drop, base.upstream]
  · show (c.buf.drop len).length ≤ tcpWnd
    rw [List.length_drop]
    exact Nat.le_trans (Nat.sub_le _ _) base.room
  · show sending.isSome = (c.socksUp && !c.socksClosed && !(c.buf.drop len).isEmpty)
    rw [up, alive, isSome]
    rfl
  · intro asleep
    exact absurd (up.symm.trans asleep) (by decide)

/-- What has been taken is confirmed to lwIP, so the window opens by as much. -/
theorem Attached.taken (attached : c.Attached) (open_ : c.clientClosed = false) {len : Nat} (le : len ≤ c.buf.length)
    (sending : Option Nat) : Attached { c.taken len with sending } := by
  refine ⟨?_, attached.downstream, attached.acked, attached.waits, attached.receiving, attached.draining, attached.sentSet,
    attached.recvSet, attached.asleep, attached.cause⟩
  show (if ¬ c.clientClosed = true then c.recved + len else c.recved) = (c.toSocks ++ c.buf.take len).length
  rw [if_pos (by simp [open_]), attached.confirmed, List.length_append, List.length_take, Nat.min_eq_left le]

/-- `client_socks_send_handler_done`, with or without a pcb. -/
theorem fine_socksSendHandlerDone (sound : c.Sound) {len : Nat} (on : tcpEnabled c (.socksSent len) = true) :
    Fine (c.socksSendHandlerDone len lwip) := by
  have base := sound.base
  obtain ⟨n, sends, pos, le⟩ : ∃ n, c.sending = some n ∧ 0 < len ∧ len ≤ n := by
    cases sends : c.sending with
    | none =>
      rw [tcpEnabled, sends] at on
      cases on
    | some n =>
      rw [tcpEnabled, sends] at on
      simp only [Bool.and_eq_true, decide_eq_true_eq] at on
      exact ⟨n, rfl, on⟩
  have bound : len ≤ c.buf.length := Nat.le_trans le (base.offered n sends).2
  have busy := base.sending
  rw [sends] at busy
  simp only [Option.isSome_some, Bool.true_eq, Bool.and_eq_true, Bool.not_eq_true', List.isEmpty_eq_false_iff] at busy
  obtain ⟨⟨up, alive⟩, some_⟩ := busy
  rw [socksSendHandlerDone, ensure_of (by simp [alive]), ensure_of up, ensure_of some_, ensure_of ⟨pos, bound⟩]
  by_cases more : c.buf.drop len ≠ []
  · rw [if_pos more]
    refine ⟨base.taken up alive ?_ ?_, fun open_ => (sound.attached open_).taken open_ bound _, fun closed => ?_⟩
    · rw [List.isEmpty_eq_false_iff.mpr more]
      rfl
    · intro n same
      cases same
      exact ⟨List.length_pos_iff.mpr more, Nat.le_refl _⟩
    · exact ⟨alive, more, (sound.flushing closed).2.2⟩
  · rw [if_neg more]
    have empty : c.buf.drop len = [] := Decidable.not_not.mp more
    have idle : Base { c.taken len with sending := none } := by
      refine base.taken up alive ?_ ?_
      · rw [empty]
        rfl
      · intro n no
        cases no
    by_cases closed : c.clientClosed = true
    · rw [if_pos closed, freeSocks_alone]
      · refine ⟨idle.upstream, idle.inOrder, fun _ => ?_, fun after => absurd after (sound.flushing closed).2.2⟩
        have all := idle.upstream
        change c.fromClient = (c.taken len).toSocks ++ c.buf.drop len at all
        rw [empty, List.append_nil] at all
        exact all.symm
      · exact alive
      · exact closed
    · rw [if_neg closed]
      have open_ : c.clientClosed = false := by simpa using closed
      exact ⟨idle, fun _ => (sound.attached open_).taken open_ bound none, fun no => absurd no closed⟩

/-! ## Towards the device -/

/-- What the loop leaves: more may have been written, and it has been counted. -/
structure Queued (c : TcpClient) (data : Bytes) (c' : TcpClient) : Prop where
  same : c' = { c with recvBufSent := c'.recvBufSent, tcpPending := c'.tcpPending, toClient := c'.toClient }
  sent : c'.recvBufSent ≤ data.length
  pending : c'.tcpPending = c.tcpPending + (c'.recvBufSent - c.recvBufSent)
  grows : c.recvBufSent ≤ c'.recvBufSent
  toClient : c'.toClient ++ data.drop c'.recvBufSent = c.toClient ++ data.drop c.recvBufSent
  length : c'.toClient.length = c.toClient.length + (c'.recvBufSent - c.recvBufSent)

/-- lwIP has taken `n` bytes. -/
theorem queued_written {data : Bytes} {n : Nat} (le : n ≤ data.length - c.recvBufSent) (fits : c.recvBufSent ≤ data.length) :
    Queued c data (c.written data n) := by
  refine ⟨rfl, ?_, ?_, Nat.le_add_right _ _, ?_, ?_⟩
  · show c.recvBufSent + n ≤ data.length
    omega
  · show c.tcpPending + n = c.tcpPending + (c.recvBufSent + n - c.recvBufSent)
    omega
  · show (c.toClient ++ (data.drop c.recvBufSent).take n) ++ data.drop (c.recvBufSent + n) = c.toClient ++ data.drop c.recvBufSent
    rw [List.append_assoc, ← List.drop_drop, List.take_append_drop]
  · show (c.toClient ++ (data.drop c.recvBufSent).take n).length = _
    rw [List.length_append, List.length_take, List.length_drop, Nat.min_eq_left le]
    show _ = c.toClient.length + (c.recvBufSent + n - c.recvBufSent)
    omega

theorem Queued.refl {data : Bytes} (fits : c.recvBufSent ≤ data.length) : Queued c data c :=
  ⟨rfl, fits, by omega, Nat.le_refl _, rfl, by omega⟩

/-- Two writes one after the other. -/
theorem Queued.trans {data : Bytes} {d : TcpClient} (first : Queued c data c') (second : Queued c' data d) : Queued c data d := by
  refine ⟨?_, second.sent, ?_, Nat.le_trans first.grows second.grows, second.toClient.trans first.toClient, ?_⟩
  · rw [second.same, first.same]
  · have := first.pending
    have := second.pending
    have := first.grows
    have := second.grows
    omega
  · have := first.length
    have := second.length
    have := first.grows
    have := second.grows
    omega

/-- The loop goes on with what it has written; each round writes something. -/
theorem queued_queue {data : Bytes} (ws : List Write) (fits : c.recvBufSent ≤ data.length) : Queued c data (c.queue data ws).1 := by
  induction ws generalizing c with
  | nil => exact .refl fits
  | cons w ws ih =>
    rw [queue]
    split
    · exact .refl fits
    · split
      · exact .refl fits
      · exact .refl fits
      · have written := queued_written (Nat.min_le_left _ w.sndbuf) fits
        split
        next more => exact written.trans (ih (Nat.le_of_lt more))
        · exact written

/-- Data from SOCKS are being queued. -/
structure Ready (c : TcpClient) (data : Bytes) : Prop where
  base : c.Base
  open_ : c.clientClosed = false
  up : c.socksUp = true
  held : c.recvBuf = some data
  fits : c.recvBufSent ≤ data.length
  confirmed : c.recved = c.toSocks.length
  downstream : c.fromSocks = c.toClient ++ data.drop c.recvBufSent
  acked : c.toClient.length = c.acked + c.tcpPending
  quiet : c.receiving = false
  sentSet : c.sentSet = true
  recvSet : c.recvSet = !c.socksClosed
  cause : c.socksClosed = true → c.socksEnd = some .failed ∨ c.socksEnd = some .closed

/-- A client that has got data from SOCKS is ready to write until all of them are written. -/
theorem Ready.queued {data : Bytes} (ready : c.Ready data) (queued : Queued c data c') : c'.Ready data := by
  have same := queued.same
  have all : c.fromSocks = c'.toClient ++ data.drop c'.recvBufSent := ready.downstream.trans queued.toClient.symm
  have base : c'.Base := by
    have := ready.base
    rw [same]
    refine ⟨this.upstream, this.room, this.sending, this.offered, ⟨data.drop c'.recvBufSent, all.symm⟩, this.listening, ?_⟩
    intro asleep
    exact absurd (ready.up.symm.trans asleep) (by decide)
  have counted : c'.toClient.length = c.acked + c'.tcpPending := by
    have := ready.acked
    have := queued.length
    have := queued.pending
    omega
  refine ⟨base, ?_, ?_, ?_, queued.sent, ?_, ?_, ?_, ?_, ?_, ?_, ?_⟩
  · rw [same]; exact ready.open_
  · rw [same]; exact ready.up
  · rw [same]; exact ready.held
  · rw [same]; exact ready.confirmed
  · rw [same]; exact all
  · rw [same]; exact counted
  · rw [same]; exact ready.quiet
  · rw [same]; exact ready.sentSet
  · rw [same]; exact ready.recvSet
  · rw [same]; exact ready.cause

/-- It may stop where lwIP takes no more, since a confirmation is outstanding then. -/
theorem Ready.sound_waiting {data : Bytes} (ready : c.Ready data) (more : c.recvBufSent < data.length) (pending : 0 < c.tcpPending) :
    Sound { c with recvWaiting := true } := by
  have base := ready.base
  have held := ready.held
  refine ⟨⟨base.upstream, base.room, base.sending, base.offered, base.inOrder, base.listening, base.asleep⟩, fun _ => ?_, fun no => ?_⟩
  · refine ⟨ready.confirmed, ?_, fun _ => ready.acked, ?_, ?_, fun _ => pending, ready.sentSet.trans ready.up.symm, ready.recvSet,
      fun no => ?_, ready.cause⟩
    · show c.fromSocks = c.toClient ++ (c.recvBuf.getD []).drop c.recvBufSent
      rw [held]
      exact ready.downstream
    · intro data' held'
      cases held.symm.trans held'
      exact ⟨more, rfl, pending⟩
    · show c.receiving = (c.socksUp && !c.socksClosed && c.recvBuf.isNone)
      rw [ready.quiet, held, Option.isNone_some, Bool.and_false]
    · exact absurd (ready.up.symm.trans no) (by decide)
  · exact absurd (ready.open_.symm.trans no) (by decide)

/-- Everything has been queued, and the next data are received unless SOCKS is closed. -/
theorem Ready.sound_done {data : Bytes} (ready : c.Ready data) (all : c.recvBufSent = data.length) (pending : 0 < c.tcpPending) :
    Sound { c with recvBuf := none, receiving := !c.socksClosed } := by
  have base := ready.base
  refine ⟨⟨base.upstream, base.room, base.sending, base.offered, base.inOrder, ?_, base.asleep⟩, fun _ => ?_, fun no => ?_⟩
  · intro listening
    exact ⟨rfl, ready.up, by simpa using listening⟩
  · refine ⟨ready.confirmed, ?_, fun _ => ready.acked, ?_, ?_, fun _ => pending, ready.sentSet.trans ready.up.symm, ready.recvSet,
      fun _ => rfl, ready.cause⟩
    · rw [unsent_none rfl]
      have all_ := ready.downstream
      rw [all, List.drop_length] at all_
      exact all_
    · intro data no
      cases no
    · show (!c.socksClosed) = (c.socksUp && !c.socksClosed && true)
      rw [ready.up, Bool.true_and, Bool.and_true]
  · exact absurd (ready.open_.symm.trans no) (by decide)

/-- When all is written, the next receive is started. -/
theorem Ready.fine_initiate {data : Bytes} (ready : c.Ready data) (all : c.recvBufSent = data.length) (pending : 0 < c.tcpPending)
    (alive : c.socksClosed = false) : Fine ({ c with recvBuf := none } : TcpClient).socksRecvInitiate := by
  have done := ready.sound_done all pending
  rw [show (!c.socksClosed) = true by rw [alive]; rfl] at done
  rw [socksRecvInitiate_eq (c := { c with recvBuf := none }) ready.open_ ready.up alive rfl]
  exact done

/-- How `client_socks_recv_send_out` may end. -/
inductive SentOut (closed : Bool) (data : Bytes) : Except Gone (TcpClient × Bool) → Prop where
  | gone {c : TcpClient} (sound : c.Sound) : SentOut closed data (.ok (c, false))
  | stopped {why : Gone} (fine : Fine (.error why)) : SentOut closed data (.error why)
  | waiting {c : TcpClient} (ready : c.Ready data) (more : c.recvBufSent < data.length) (pending : 0 < c.tcpPending) :
      SentOut closed data (.ok ({ c with recvWaiting := true }, true))
  | done {c : TcpClient} (ready : c.Ready data) (all : c.recvBufSent = data.length) (pending : 0 < c.tcpPending)
      (same : c.socksClosed = closed) : SentOut closed data (.ok ({ c with recvBuf := none }, true))

/-- Where lwIP fails for another reason, the client is aborted. -/
theorem Ready.sentOut_abort {data : Bytes} {closed : Bool} (ready : c.Ready data) :
    SentOut closed data ((c.abortClient .failed lwip).map fun c => (c, false)) := by
  have fine : Fine ((c.withoutPcb .aborted).handleFreedClient .failed lwip) :=
    fine_handleFreedClient ready.base ready.open_ (by simp) .aborted ready.cause
  rw [abortClient, ensure_of (by simp [ready.open_])]
  cases result : (c.withoutPcb .aborted).handleFreedClient .failed lwip with
  | ok c' =>
    rw [result] at fine
    exact .gone fine
  | error why =>
    rw [result] at fine
    exact .stopped fine

/-- The loop of `client_socks_recv_send_out`, which writes as long as lwIP takes something. -/
theorem Ready.sentOut {data : Bytes} (lwip : Lwip) (ready : c.Ready data) (more : c.recvBufSent < data.length)
    (rested : c.recvWaiting = false) :
    SentOut c.socksClosed data (c.socksRecvSendOut lwip) := by
  have queued := queued_queue lwip.writes ready.fits
  have ready' := ready.queued queued
  unfold socksRecvSendOut
  rw [ensure_of (by simp [ready.open_]), ensure_of ready.up, ready.held]
  dsimp only
  rw [ensure_of more, ensure_of (by simp [rested])]
  split
  · exact ready'.sentOut_abort
  · split
    · exact ready'.sentOut_abort
    · split
      next left =>
        split
        · exact ready'.sentOut_abort
        next pending => exact .waiting ready' left (Nat.pos_of_ne_zero pending)
      next none_ =>
        have all : (c.queue data lwip.writes).1.recvBufSent = data.length := Nat.le_antisymm queued.sent (Nat.le_of_not_lt none_)
        have pending := queued.pending
        have closed : (c.queue data lwip.writes).1.socksClosed = c.socksClosed := by rw [queued.same]
        exact .done ready' all (by omega) closed

/-- `client_socks_recv_handler_done`: the data are written, as far as lwIP takes them. -/
theorem fine_socksRecvHandlerDone (sound : c.Sound) {data : Bytes} (on : tcpEnabled c (.socksReceived data) = true) :
    Fine (c.socksRecvHandlerDone data lwip) := by
  simp only [tcpEnabled, Bool.and_eq_true, decide_eq_true_eq] at on
  obtain ⟨⟨listening, some_⟩, fits⟩ := on
  have base := sound.base
  obtain ⟨empty, up, alive⟩ := base.listening listening
  have grown : c.toClient <+: c.fromSocks ++ data := base.inOrder.trans (List.prefix_append _ _)
  have awake : c.socksUp = false → c.socksClosed = false ∧ c.fromSocks ++ data = [] ∧ c.toClient = [] ∧ c.acked = 0 :=
    fun asleep => absurd (up.symm.trans asleep) (by decide)
  rw [socksRecvHandlerDone, ensure_of ⟨List.length_pos_iff.mp some_, fits⟩, ensure_of (by simp [alive]), ensure_of up, ensure_of empty]
  by_cases closed : c.clientClosed = true
  · rw [if_pos closed]
    refine ⟨⟨base.upstream, base.room, base.sending, base.offered, grown, fun no => ?_, awake⟩, fun no => ?_, sound.flushing⟩
    · cases no
    · exact absurd (closed.symm.trans no) (by decide)
  · have open_ : c.clientClosed = false := by simpa using closed
    have attached := sound.attached open_
    have ready : (c.arrived data).Ready data := by
      refine ⟨⟨base.upstream, base.room, base.sending, base.offered, grown, fun no => ?_, awake⟩, open_, up, rfl, Nat.zero_le _,
        attached.confirmed, ?_, attached.acked up, rfl, attached.sentSet.trans up, attached.recvSet, attached.cause⟩
      · cases no
      · show c.fromSocks ++ data = c.toClient ++ data
        rw [attached.downstream, unsent_none empty, List.append_nil]
    have ends := ready.sentOut lwip some_ rfl
    rw [if_neg closed]
    generalize (c.arrived data).socksRecvSendOut lwip = result at ends ⊢
    cases ends with
    | gone sound' => exact sound'
    | stopped fine => exact fine
    | waiting ready' more pending =>
      dsimp only [bind, Except.bind]
      rw [if_neg (by simp), if_neg (by simp [ready'.held])]
      exact ready'.sound_waiting more pending
    | done ready' all pending same =>
      dsimp only [bind, Except.bind]
      rw [if_neg (by simp), if_pos rfl]
      exact ready'.fine_initiate all pending (same.trans alive)

/-- `client_sent_func`: what is confirmed makes room, and the client ends with the last
confirmation if SOCKS is down. Data that wait for room in the window are sent as far as the window
goes: the connection may go down in the loop, the window may be full again, or everything is sent
and the next receive is started. -/
theorem fine_sentFunc (sound : c.Sound) {len : Nat} (on : tcpEnabled c (.sent len) = true) : Fine (c.sentFunc len lwip) := by
  simp only [tcpEnabled, Bool.and_eq_true, Bool.not_eq_true', decide_eq_true_eq] at on
  obtain ⟨⟨⟨set_, open_⟩, pos⟩, le⟩ := on
  have base := sound.base
  have attached := sound.attached open_
  have up : c.socksUp = true := attached.sentSet.symm.trans set_
  have counted : c.toClient.length = c.acked + len + (c.tcpPending - len) := by
    have := attached.acked up
    omega
  have awake : c.socksUp = false → c.socksClosed = false ∧ c.fromSocks = [] ∧ c.toClient = [] ∧ c.acked + len = 0 :=
    fun asleep => absurd (up.symm.trans asleep) (by decide)
  have base' : (c.confirmed len).Base :=
    ⟨base.upstream, base.room, base.sending, base.offered, base.inOrder, base.listening, awake⟩
  unfold sentFunc
  rw [ensure_of (by simp [open_]), ensure_of up, ensure_of ⟨pos, le⟩]
  cases held : c.recvBuf with
  | some data =>
    obtain ⟨more, waiting, -⟩ := attached.waits data held
    have ready : Ready { c.confirmed len with recvWaiting := false } data := by
      refine ⟨⟨base.upstream, base.room, base.sending, base.offered, base.inOrder, base.listening, awake⟩, open_, up, held,
        Nat.le_of_lt more, attached.confirmed, ?_, counted, ?_, set_, attached.recvSet, attached.cause⟩
      · have all := attached.downstream
        rwa [unsent, held] at all
      · show c.receiving = false
        rw [attached.receiving, held, Option.isNone_some, Bool.and_false]
    have ends := ready.sentOut lwip more rfl
    dsimp only
    rw [ensure_of waiting, ensure_of more]
    generalize ({ c.confirmed len with recvWaiting := false } : TcpClient).socksRecvSendOut lwip = result at ends ⊢
    cases ends with
    | gone sound' => exact sound'
    | stopped fine => exact fine
    | waiting ready' more' pending =>
      dsimp only [bind, Except.bind]
      rw [if_neg (by simp), ensure_of (by exact pending), if_neg (by simp [ready'.held])]
      exact ready'.sound_waiting more' pending
    | @done c' ready' all pending same =>
      dsimp only [bind, Except.bind]
      rw [if_neg (by simp), ensure_of (by exact pending)]
      by_cases closed : c'.socksClosed = true
      · have done := ready'.sound_done all pending
        have quiet : c'.receiving = !c'.socksClosed := by rw [ready'.quiet, closed]; rfl
        rw [if_neg fun both => both.2 closed]
        rw [← quiet] at done
        exact done
      · have alive : c'.socksClosed = false := by simpa using closed
        rw [if_pos ⟨rfl, closed⟩]
        exact ready'.fine_initiate all pending alive
  | none =>
    dsimp only
    by_cases last : c.socksClosed = true ∧ (c.confirmed len).tcpPending = 0
    · rw [if_pos last, freeClient_alone (c := c.confirmed len) open_ last.1]
      refine ⟨base.upstream, base.inOrder, fun flushed => ?_, fun _ => ⟨?_, ?_⟩⟩
      · change c.socksEnd = _ ∨ c.socksEnd = _ at flushed
        rcases attached.cause last.1 with cause | cause <;> rw [cause] at flushed <;> simp at flushed
      all_goals
        have all := attached.downstream
        rw [unsent_none held, List.append_nil] at all
      · exact all.symm
      · show c.acked + len = c.fromSocks.length
        have zero : c.tcpPending - len = 0 := last.2
        rw [all]
        omega
    · rw [if_neg last]
      refine ⟨base', fun _ => ?_, fun no => absurd (open_.symm.trans no) Bool.false_ne_true⟩
      refine ⟨attached.confirmed, attached.downstream, fun _ => counted, fun data held' => ?_, attached.receiving, fun closed => ?_,
        attached.sentSet, attached.recvSet, attached.asleep, attached.cause⟩
      · exact absurd (held.symm.trans held') (by simp)
      · exact Nat.pos_of_ne_zero fun zero => last ⟨closed, zero⟩

/-! ## Every run -/

/-- What a new client is. -/
theorem sound_new : Sound {} := by
  refine ⟨⟨rfl, Nat.zero_le _, rfl, ?_, List.prefix_rfl, ?_, fun _ => ⟨rfl, rfl, rfl, rfl⟩⟩, fun _ => ?_, fun no => ?_⟩
  · intro n no
    cases no
  · intro no
    cases no
  · refine ⟨rfl, rfl, fun _ => rfl, fun data no => ?_, rfl, fun no => ?_, rfl, rfl, fun _ => rfl, fun no => ?_⟩ <;> cases no
  · cases no

/-- A callback keeps the invariant, or removes the client when it is done. -/
theorem fine_fire (lwip : Lwip) (sound : c.Sound) {e : TcpEvent} (on : tcpEnabled c e = true) : Fine (tcpFire c lwip e) := by
  cases e with
  | recv p => exact fine_recvFunc sound on
  | err => exact fine_errFunc sound (by simpa [tcpEnabled] using on)
  | sent len => exact fine_sentFunc sound on
  | socksUp => exact fine_socksEventUp sound on
  | socksError =>
    have alive : c.socksClosed = false := by simpa [tcpEnabled] using on
    rw [tcpFire, socksEventError, ensure_of (by simp [alive])]
    exact fine_freeSocks sound alive (.inl rfl)
  | socksClosed =>
    simp only [tcpEnabled, Bool.and_eq_true, Bool.not_eq_true'] at on
    rw [tcpFire, socksEventClosed, ensure_of (by simp [on.1]), ensure_of on.2]
    exact fine_freeSocks sound on.1 (.inr rfl)
  | socksSent len => exact fine_socksSendHandlerDone sound on
  | socksReceived data => exact fine_socksRecvHandlerDone sound on

end TcpClient

open TcpClient

/-- The states of a client of tun2socks. -/
def TcpReach (c : TcpClient) : Prop := tcpMachine.Reach (fun _ _ => True) {} c

/-- Every client that is reached is sound. -/
theorem TcpReach.sound {c : TcpClient} (reach : TcpReach c) : c.Sound := by
  refine reach.invariant Sound sound_new fun s e s' sound on _ fired => ?_
  have fine := fine_fire e.2 sound on
  change tcpFire s e.2 e.1 = .ok s' at fired
  rw [fired] at fine
  exact fine

/-- What ends when a callback removes the client. -/
theorem TcpReach.finished {c : TcpClient} (reach : TcpReach c) {e : TcpEvent} {lwip : Lwip} (on : tcpEnabled c e = true)
    {c' : TcpClient} (removed : tcpFire c lwip e = .error (.removed c')) : c'.Finished := by
  have fine := fine_fire lwip reach.sound on
  rw [removed] at fine
  exact fine

/-- The device has sent three bytes, of which SOCKS has taken two; SOCKS has sent three, of which two
have been queued, and has been closed. -/
def tcpExample : List (TcpEvent × Lwip) :=
  [(.recv (some [1, 2, 3]), {}), (.socksUp, {}), (.socksSent 2, {}), (.socksReceived [7, 8, 9], { writes := [⟨2, .ok⟩] }),
    (.socksClosed, {})]

/-- Bytes in both directions, and the SOCKS side goes down before the device has confirmed them.
-/
theorem reach_tcpExample : ∃ c, TcpReach c ∧ c.clientClosed = false ∧ c.socksClosed = true ∧ c.acked = 0 ∧ c.fromSocks = [7, 8, 9] ∧
    c.toSocks = [1, 2] := by
  have ran : tcpMachine.leadsTo {} tcpExample (fun c => !c.clientClosed && c.socksClosed && c.acked == 0 && c.fromSocks == [7, 8, 9] &&
      c.toSocks == [1, 2]) = true := by decide +kernel
  obtain ⟨c, run, facts⟩ := Machine.exists_of_leadsTo ran
  simp only [Bool.and_eq_true, beq_iff_eq, Bool.not_eq_true'] at facts
  exact ⟨c, .of_run .refl (fun _ _ _ => trivial) run, facts.1.1.1.1, facts.1.1.1.2, facts.1.1.2, facts.1.2, facts.2⟩

/-- What SOCKS sends reaches the device in order. While some of it has not been confirmed, there is a
confirmation to come, and a client that is removed for SOCKS has delivered everything. -/
theorem tcp_downstream {c : TcpClient} (reach : TcpReach c) :
    c.toClient <+: c.fromSocks ∧
    (c.clientClosed = false → c.acked < c.fromSocks.length → 0 < c.tcpPending ∧ c.sentSet = true) ∧
    ∀ e lwip c', tcpEnabled c e = true → tcpFire c lwip e = .error (.removed c') →
      c'.toClient <+: c'.fromSocks ∧
      (c'.clientEnd = some .afterSocks → c'.toClient = c'.fromSocks ∧ c'.acked = c'.fromSocks.length) := by
  have sound := reach.sound
  refine ⟨sound.base.inOrder, fun open_ short => ?_, fun e lwip c' on removed => ?_⟩
  · have attached := sound.attached open_
    have up : c.socksUp = true := by
      by_contra asleep
      obtain ⟨-, nothing, -, -⟩ := sound.base.asleep (by simpa using asleep)
      rw [nothing] at short
      exact Nat.not_lt_zero _ short
    refine ⟨?_, attached.sentSet.trans up⟩
    cases held : c.recvBuf with
    | some data => exact (attached.waits data held).2.2
    | none =>
      have all := attached.downstream
      have counted := attached.acked up
      rw [unsent_none held, List.append_nil] at all
      rw [all] at short
      omega
  · have finished := reach.finished on removed
    exact ⟨finished.inOrder, finished.delivered⟩

theorem tcp_downstream_example : ∃ c, TcpReach c ∧ c.acked < c.fromSocks.length ∧ 0 < c.tcpPending := by
  obtain ⟨c, reach, open_, -, zero, got, -⟩ := reach_tcpExample
  have short : c.acked < c.fromSocks.length := by
    rw [zero, got]
    decide
  exact ⟨c, reach, short, ((tcp_downstream reach).2.1 open_ short).1⟩

/-- What the device sends reaches SOCKS in order, and is confirmed to the device then. Data within the
window are always taken, and a client that is removed after SOCKS has been drained has sent everything. -/
theorem tcp_upstream {c : TcpClient} (reach : TcpReach c) :
    c.fromClient = c.toSocks ++ c.buf ∧ c.buf.length ≤ tcpWnd ∧
    (c.clientClosed = false → c.recved = c.toSocks.length ∧
      ∀ data lwip, tcpEnabled c (.recv (some data)) = true → c.fromClient.length + data.length ≤ c.recved + tcpWnd →
        ∃ c', tcpFire c lwip (.recv (some data)) = .ok c' ∧ c'.fromClient = c.fromClient ++ data) ∧
    ∀ e lwip c', tcpEnabled c e = true → tcpFire c lwip e = .error (.removed c') →
      c'.fromClient = c'.toSocks ++ c'.buf ∧
      (c'.socksEnd = some .drained ∨ c'.socksEnd = some .idle → c'.toSocks = c'.fromClient) := by
  have sound := reach.sound
  have base := sound.base
  refine ⟨base.upstream, base.room, fun open_ => ?_, fun e lwip c' on removed => ?_⟩
  · have confirmed := (sound.attached open_).confirmed
    refine ⟨confirmed, fun data lwip on within => ?_⟩
    have room : ¬ tcpWnd - c.buf.length < data.length := by
      rw [base.upstream, List.length_append, confirmed] at within
      omega
    have some_ : data ≠ [] := by
      rintro rfl
      simp [tcpEnabled] at on
    have up : c.socksClosed = false := by
      simp only [tcpEnabled, Bool.and_eq_true] at on
      have := (sound.attached open_).recvSet
      rw [on.1.1] at this
      simpa using this.symm
    rw [tcpFire]
    unfold recvFunc heard
    dsimp only
    rw [ensure_of (by simp [open_]), ensure_of some_, if_neg room]
    split
    next start =>
      have grown : c.buf ++ data ≠ [] := fun no => some_ (List.append_eq_nil_iff.mp no).2
      rw [sendToSocks_eq (c := { c with buf := c.buf ++ data, fromClient := c.fromClient ++ data }) start.2 up grown]
      exact ⟨_, rfl, rfl⟩
    · exact ⟨_, rfl, rfl⟩
  · have finished := reach.finished on removed
    exact ⟨finished.upstream, finished.drained⟩

theorem tcp_upstream_example : ∃ c, TcpReach c ∧ c.toSocks = [1, 2] ∧ c.recved = 2 := by
  obtain ⟨c, reach, open_, -, -, -, sent⟩ := reach_tcpExample
  have confirmed := ((tcp_upstream reach).2.2.1 open_).1
  rw [sent] at confirmed
  exact ⟨c, reach, sent, confirmed⟩

/-- No assertion fails, and no client is left behind: one without its pcb is being flushed to SOCKS,
one without SOCKS has a confirmation to come, and one with both waits for data, or for a confirmation. -/
theorem tcp_never_stuck {c : TcpClient} (reach : TcpReach c) :
    (∀ e lwip, tcpEnabled c e = true → tcpFire c lwip e ≠ .error .asserted) ∧
    (c.clientClosed = true → c.socksClosed = false ∧ (c.socksUp = true → c.sending.isSome = true)) ∧
    (c.socksClosed = true → c.clientClosed = false ∧ c.sentSet = true ∧ 0 < c.tcpPending) ∧
    (c.clientClosed = false → c.socksUp = true → c.socksClosed = false →
      c.receiving = true ∨ c.sentSet = true ∧ 0 < c.tcpPending) := by
  have sound := reach.sound
  have base := sound.base
  refine ⟨fun e lwip on failed => ?_, fun closed => ?_, fun down => ?_, fun open_ up alive => ?_⟩
  · have fine := fine_fire lwip sound on
    rw [failed] at fine
    exact fine
  · obtain ⟨alive, some_, -⟩ := sound.flushing closed
    refine ⟨alive, fun up => ?_⟩
    rw [base.sending, up, alive, List.isEmpty_eq_false_iff.mpr some_]
    rfl
  · have open_ : c.clientClosed = false := by
      by_contra closed
      have alive := (sound.flushing (by simpa using closed)).1
      exact absurd (down.symm.trans alive) (by decide)
    have attached := sound.attached open_
    have up : c.socksUp = true := by
      by_contra asleep
      have alive := (base.asleep (by simpa using asleep)).1
      exact absurd (down.symm.trans alive) (by decide)
    exact ⟨open_, attached.sentSet.trans up, attached.draining down⟩
  · have attached := sound.attached open_
    cases held : c.recvBuf with
    | some data => exact .inr ⟨attached.sentSet.trans up, (attached.waits data held).2.2⟩
    | none =>
      refine .inl ?_
      rw [attached.receiving, up, alive, held]
      rfl

theorem tcp_never_stuck_example : ∃ c, TcpReach c ∧ c.socksClosed = true ∧ 0 < c.tcpPending := by
  obtain ⟨c, reach, -, down, -⟩ := reach_tcpExample
  exact ⟨c, reach, down, ((tcp_never_stuck reach).2.2.1 down).2.2⟩

end Shadowsocks.Tun2socks
