import Shadowsocks.Encrypt.Openssl
import Shadowsocks.Local.Conn

/-!
# The two directions of ss-local

What a callback can do to the pipes of a connection, and from it that neither direction
loses, duplicates or reorders anything. Downstream this holds along every run. Upstream
it needs that the first buffer, if it is sent before the event loop has reported the
connection, is taken whole: neither `sendto` with `MSG_FASTOPEN` nor the inline call of
`remote_send_cb` starts the write watcher.
-/

namespace Shadowsocks.Local
set_option autoImplicit false
open Lib

variable {P : Platform} {C : Config P} {conn conn' : Conn P} {remote remote' : Remote}

/-- `remote->send_ctx->connected` of a connection that has a remote. -/
def Conn.connected (conn : Conn P) : Bool := conn.phase.remote?.any fun r => r.connected

theorem Conn.connected_of (at_ : conn.phase = .stream remote) : conn.connected = remote.connected := by
  rw [Conn.connected, at_]
  rfl

/-! ## What the callbacks do to the pipes -/

theorem methodSelect_cases {e : ServerRecv} {more : Bool} (h : methodSelect conn e = .ok (more, conn')) :
    conn'.phase = .request ∧ conn'.up = conn.up ∧ ∃ buf, conn'.down = { conn.down with buf } := by
  unfold methodSelect at h
  obtain ⟨nmethods, -, h⟩ := bind_eq_ok.mp h
  obtain ⟨ver, -, h⟩ := bind_eq_ok.mp h
  dsimp only at h
  split at h
  · obtain ⟨buf, -, h⟩ := bind_eq_ok.mp h
    cases h
    exact ⟨rfl, rfl, _, rfl⟩
  · cases h
    exact ⟨rfl, rfl, _, rfl⟩

theorem createRemote_connected {direct : Bool} {e : ServerRecv} (h : createRemote direct e = .ok remote) :
    remote.connected = false := by
  unfold createRemote at h
  split at h
  · split at h
    · split at h <;> cases h
      rfl
    · cases h
  · split at h <;> cases h
    rfl

theorem handleRequest_cases {e : ServerRecv} (h : handleRequest C conn e = .ok (remote, conn')) :
    remote.connected = false ∧ conn'.phase = .stream remote ∧
      (∃ buf, conn'.up = { conn.up with buf }) ∧ ∃ buf, conn'.down = { conn.down with buf } := by
  unfold handleRequest at h
  obtain ⟨cmd, -, h⟩ := bind_eq_ok.mp h
  split at h
  · cases h
  · split at h
    · cases h
    · obtain ⟨⟨abuf, buf, direct⟩, -, h⟩ := bind_eq_ok.mp h
      obtain ⟨fresh, created, h⟩ := bind_eq_ok.mp h
      obtain ⟨⟨rbuf, sbuf, counter⟩, -, h⟩ := bind_eq_ok.mp h
      obtain ⟨reply, -, h⟩ := bind_eq_ok.mp h
      split at h
      · split at h
        · cases h
        · cases h
          have off := createRemote_connected created
          exact ⟨off, rfl, ⟨_, rfl⟩, _, rfl⟩
      · cases h

theorem encryptUp_cases {tmp : Buffer} (at_ : conn.phase = .stream remote)
    (h : encryptUp C conn remote tmp = .ok (remote', conn')) :
    conn'.phase = .stream remote' ∧ remote'.connected = remote.connected ∧ conn'.down = conn.down ∧
      ∃ buf, conn'.up = { conn.up with buf }.produce := by
  unfold encryptUp at h
  split at h
  · cases h
    exact ⟨at_, rfl, rfl, conn.up.buf, rfl⟩
  · obtain ⟨⟨buf, counter⟩, -, h⟩ := bind_eq_ok.mp h
    obtain ⟨⟨cipher, eCtx⟩, -, h⟩ := bind_eq_ok.mp h
    cases h
    exact ⟨rfl, rfl, rfl, cipher, rfl⟩

/-- `remote_send_cb` of a connection that was not yet connected. -/
theorem remoteSendCb_opening {peer : Bool} {send : SendResult} (off : remote.connected = false)
    (h : remoteSendCb conn remote peer send = .ok conn') :
    conn'.connected = true ∧ conn'.down = { conn.down with filling := true } ∧
      ((conn.up.buf.len = 0 ∧ conn'.up = conn.up.resume) ∨ conn.up.drain send = .ok conn'.up) := by
  unfold remoteSendCb at h
  rw [off, if_neg Bool.false_ne_true] at h
  split at h
  · dsimp only at h
    split at h
    · rename_i empty
      cases h
      exact ⟨rfl, rfl, .inl ⟨empty, rfl⟩⟩
    · obtain ⟨up, drained, h⟩ := bind_eq_ok.mp h
      cases h
      exact ⟨rfl, rfl, .inr drained⟩
  · cases h

theorem remoteSendCb_connected {peer : Bool} {send : SendResult} (on : remote.connected = true)
    (h : remoteSendCb conn remote peer send = .ok conn') :
    conn'.phase = conn.phase ∧ conn'.down = conn.down ∧ conn.up.drain send = .ok conn'.up := by
  unfold remoteSendCb at h
  rw [on, if_pos rfl] at h
  obtain ⟨up, drained, h⟩ := bind_eq_ok.mp h
  cases h
  exact ⟨rfl, rfl, drained⟩

/-- Downstream, the only effect of opening the remote is that its read watcher starts
when the connection is there. -/
theorem openRemote_down {e : ServerRecv} (at_ : conn.phase = .stream remote) (off : remote.connected = false)
    (h : openRemote C conn remote e = .ok conn') :
    conn'.down = { conn.down with filling := conn.down.filling || conn'.connected } := by
  have same : conn.connected = false := by rw [Conn.connected_of at_, off]
  unfold openRemote at h
  split at h
  · cases h
  · dsimp only at h
    split at h
    · split at h
      · cases h
      · obtain ⟨on, down, -⟩ := remoteSendCb_opening off h
        rw [down, on, Bool.or_true]
      · cases h
        simp [Conn.connected, Phase.remote?, off]
    · split at h
      · cases h
      · cases h
        simp [Conn.connected, Phase.remote?, at_, off]
      · obtain ⟨data, -, h⟩ := bind_eq_ok.mp h
        cases h
        simp [Conn.connected, Phase.remote?]

/-- All that `server_recv_cb` can do to the pipes. -/
theorem serverRecvCb_cases {e : ServerRecv} (h : serverRecvCb C conn e = .ok conn') :
    conn' = conn ∨
    (conn.connected = true ∧ conn'.connected = true ∧ conn'.down = conn.down ∧
      ∃ buf, ({ conn.up with buf }.produce).push e.send = .ok conn'.up) ∨
    (conn.connected = false ∧ conn'.connected = false ∧ conn'.phase.remote? = none ∧ conn'.up = conn.up ∧
      ∃ buf, conn'.down = { conn.down with buf }) ∨
    (conn.connected = false ∧ ∃ mid remote, remote.connected = false ∧ mid.phase = .stream remote ∧
      (∃ buf, mid.up = { conn.up with buf }.produce) ∧ (∃ buf, mid.down = { conn.down with buf }) ∧
      openRemote C mid remote e = .ok conn') := by
  -- the way from the request to the opening of the remote, shared by stages 0 and 1
  have request : ∀ (start : Conn P), (handleRequest C start e >>= fun x => relayUp C x.2 x.1 e) = .ok conn' →
      start.up = conn.up → (∃ buf, start.down = { conn.down with buf }) →
      ∃ mid remote, remote.connected = false ∧ mid.phase = .stream remote ∧
        (∃ buf, mid.up = { conn.up with buf }.produce) ∧ (∃ buf, mid.down = { conn.down with buf }) ∧
        openRemote C mid remote e = .ok conn' := by
    intro start h up down
    obtain ⟨⟨r, mid⟩, handled, h⟩ := bind_eq_ok.mp h
    obtain ⟨fresh, at_, ⟨rbuf, up'⟩, sbuf, down'⟩ := handleRequest_cases handled
    obtain ⟨⟨r', last⟩, encrypted, h⟩ := bind_eq_ok.mp h
    obtain ⟨at', same, downE, ebuf, upE⟩ := encryptUp_cases at_ encrypted
    dsimp only at h same
    rw [same, fresh, if_neg Bool.false_ne_true] at h
    obtain ⟨b, down⟩ := down
    refine ⟨last, r', same.trans fresh, at', ⟨ebuf, ?_⟩, ⟨sbuf, ?_⟩, h⟩
    · rw [upE, up', up]
    · rw [downE, down', down]
  unfold serverRecvCb at h
  split at h
  · cases h
  · cases h
  · cases h; exact .inl rfl
  · split at h
    · rename_i segment _ r at_
      obtain ⟨up, received, h⟩ := bind_eq_ok.mp h
      obtain ⟨buf, -, received⟩ := bind_eq_ok.mp received
      have still : ({ conn with up } : Conn P).phase = .stream r := at_
      cases received
      obtain ⟨⟨r', mid⟩, encrypted, h⟩ := bind_eq_ok.mp h
      obtain ⟨at', same, down, ebuf, upE⟩ := encryptUp_cases still encrypted
      dsimp only at h same down upE at'
      split at h
      · rename_i on
        obtain ⟨up', pushed, h⟩ := bind_eq_ok.mp h
        cases h
        refine .inr (.inl ⟨?_, ?_, down, ebuf, ?_⟩)
        · rw [Conn.connected_of at_, ← same, on]
        · rw [Conn.connected, at']
          exact on
        · rw [← pushed, upE]
      · rename_i off
        rw [Bool.not_eq_true] at off
        refine .inr (.inr (.inr ⟨?_, mid, r', off, at', ⟨ebuf, upE⟩, ⟨conn.down.buf, down⟩, h⟩))
        rw [Conn.connected_of at_, ← same, off]
    · rename_i at_
      have off : conn.connected = false := by rw [Conn.connected, at_]; rfl
      obtain ⟨down, received, h⟩ := bind_eq_ok.mp h
      obtain ⟨buf, -, received⟩ := bind_eq_ok.mp received
      cases received
      exact .inr (.inr (.inr ⟨off, request _ h rfl ⟨_, rfl⟩⟩))
    · rename_i at_
      have off : conn.connected = false := by rw [Conn.connected, at_]; rfl
      obtain ⟨down, received, h⟩ := bind_eq_ok.mp h
      obtain ⟨buf, -, received⟩ := bind_eq_ok.mp received
      cases received
      obtain ⟨⟨more, mid⟩, selected, h⟩ := bind_eq_ok.mp h
      obtain ⟨at', up', sbuf, down'⟩ := methodSelect_cases selected
      dsimp only at h
      split at h
      · exact .inr (.inr (.inr ⟨off, request mid h up' ⟨sbuf, down'⟩⟩))
      · cases h
        refine .inr (.inr (.inl ⟨off, ?_, ?_, up', sbuf, down'⟩))
        · rw [Conn.connected, at']; rfl
        · rw [at']; rfl

/-- All that `remote_recv_cb` can do to the pipes. -/
theorem remoteRecvCb_cases {e : RecvEvent} (at_ : conn.phase.remote? = some remote)
    (h : remoteRecvCb C conn remote e = .ok conn') :
    conn'.up = conn.up ∧ conn'.connected = conn.connected ∧
      (conn'.down = conn.down ∨ ∃ buf, ({ conn.down with buf }.produce).push e.send = .ok conn'.down) := by
  have same : conn.connected = remote.connected := by rw [Conn.connected, at_]; rfl
  unfold remoteRecvCb at h
  dsimp only at h
  split at h
  · cases h
  · cases h
  · cases h
    exact ⟨rfl, same.symm, .inl rfl⟩
  · split at h
    · obtain ⟨down, received, h⟩ := bind_eq_ok.mp h
      obtain ⟨buf, -, received⟩ := bind_eq_ok.mp received
      cases received
      obtain ⟨down', pushed, h⟩ := bind_eq_ok.mp h
      cases h
      exact ⟨rfl, same.symm, .inr ⟨_, pushed⟩⟩
    · obtain ⟨⟨down, dCtx⟩, relayed, h⟩ := bind_eq_ok.mp h
      obtain ⟨buf, pushed⟩ := relayDecrypted_cases relayed
      cases h
      exact ⟨rfl, same.symm, .inr ⟨buf, pushed⟩⟩

/-! ## Upstream -/

/-- The data of the `SYN` is taken whole. -/
def SendtoResult.whole : SendtoResult → Bool
  | .short _ => false
  | _ => true

/-- Until the connection is there, data that the program offers is taken whole. -/
def opensWhole (conn : Conn P) : Event → Prop
  | .serverRecv e => conn.connected = false → e.connect.whole = true ∧ e.sendto.whole = true
  | _ => True

/-- The inline `remote_send_cb`: the watchers end as they must if the send is not cut. -/
theorem remoteSendCb_inline {peer : Bool} {send : SendResult} (off : remote.connected = false)
    (h : remoteSendCb conn remote peer send = .ok conn') (fresh : conn.up.Fresh) (start : conn.up.buf.idx = 0)
    (whole : (ConnectResult.immediate peer send).whole = true) : conn'.up.Ok := by
  have produced : conn.up.produced = conn.up.accepted ++ conn.up.buf.bytes := fresh
  obtain ⟨-, -, ⟨empty, resumed⟩ | drained⟩ := remoteSendCb_opening off h
  · rw [resumed]
    apply Pipe.Ok.idle
    · simp [Pipe.resume, produced, Buffer.bytes, empty, window]
    · rfl
  · rw [Pipe.drain_whole whole drained]
    apply Pipe.Ok.idle
    · dsimp only [Pipe.resume]
      rw [produced, Buffer.pending, start, Buffer.bytes]
    · rfl

theorem openRemote_up {e : ServerRecv} (off : remote.connected = false) (fresh : conn.up.Fresh)
    (idle : conn.up.draining = false) (connects : e.connect.whole = true) (sends : e.sendto.whole = true)
    (h : openRemote C conn remote e = .ok conn') : conn'.up.Ok := by
  have waits : ({ conn.up with buf := { conn.up.buf with idx := 0 } } : Pipe).await.Ok := ⟨fresh, rfl⟩
  unfold openRemote at h
  split at h
  · cases h
  · dsimp only at h
    split at h
    · split at h
      · cases h
      · rename_i peer send result
        rw [result] at connects
        exact remoteSendCb_inline off h fresh rfl connects
      · cases h
        exact waits
    · split at h
      · cases h
      · cases h
        exact waits
      · obtain ⟨data, read, h⟩ := bind_eq_ok.mp h
        rw [orCrash_eq_ok, Buffer.read, load] at read
        split at read <;> cases read
        have all : e.sendto = .full := by
          cases result : e.sendto with
          | full => rfl
          | short n => rw [result] at sends; cases sends
          | inProgress => simp_all
          | failed => simp_all
        rw [all] at h
        cases h
        apply Pipe.Ok.idle
        · have produced : conn.up.produced = conn.up.accepted ++ conn.up.buf.bytes := fresh
          dsimp only
          rw [produced, Buffer.bytes, take_window]
        · exact idle

/-- No callback disturbs the upstream pipe. -/
theorem fire_up {e : Event} (ok : conn.up.Ok) (on : enabled conn e = true) (may : opensWhole conn e)
    (h : fire C conn e = .ok conn') : conn'.up.Ok := by
  cases e with
  | serverRecv e =>
    have filling : conn.up.filling = true := on
    have same := ok.delivered filling
    have idle := ok.not_draining filling
    obtain rfl | ⟨-, -, -, buf, pushed⟩ | ⟨-, -, -, up, -⟩ | ⟨off, mid, r, fresh, -, ⟨buf, up⟩, -, opened⟩ :=
      serverRecvCb_cases h
    · exact ok
    · exact Pipe.push_ok (Pipe.Fresh.produce same buf) idle pushed
    · rw [up]
      exact ok
    · obtain ⟨connects, sends⟩ := may off
      refine openRemote_up fresh ?_ ?_ connects sends opened
      · rw [up]
        exact Pipe.Fresh.produce same buf
      · rw [up]
        exact idle
  | serverSend send =>
    obtain ⟨down, -, h⟩ := bind_eq_ok.mp h
    cases h
    exact ok
  | remoteRecv e =>
    obtain ⟨r, found, h⟩ := bind_eq_ok.mp h
    rw [orCrash_eq_ok, deref_eq_ok] at found
    obtain ⟨up, -, -⟩ := remoteRecvCb_cases found h
    rw [up]
    exact ok
  | remoteSend peer send =>
    have draining : conn.up.draining = true := on
    obtain ⟨r, found, h⟩ := bind_eq_ok.mp h
    cases connected : r.connected with
    | true =>
      obtain ⟨-, -, drained⟩ := remoteSendCb_connected connected h
      exact Pipe.drain_ok ok draining drained
    | false =>
      obtain ⟨-, -, ⟨empty, resumed⟩ | drained⟩ := remoteSendCb_opening connected h
      · rw [resumed]
        exact Pipe.resume_ok ok draining empty
      · exact Pipe.drain_ok ok draining drained
  | remoteTimeout => cases h

theorem acceptCb_up (C : Config P) (iv : Bytes) : (acceptCb C iv).up.Ok := Pipe.Ok.idle rfl rfl

/-- In every run in which data sent before the event loop reports the connection is
taken whole, nothing is lost upstream. -/
theorem upstream_intact (C : Config P) (iv : Bytes) :
    ∀ conn, (machine C).Reach opensWhole (acceptCb C iv) conn → conn.up.Intact := by
  intro conn reach
  have ok := reach.invariant (fun conn => conn.up.Ok) (acceptCb_up C iv) fun _ _ _ ok on may fired =>
    fire_up ok on may fired
  exact ok.intact

/-- ss-local with the method `rc4`, no access control list and no authentication. -/
def rc4Config : Config rc4Platform where
  E := { method := .rc4, key := be32 7 ++ be32 1 ++ be32 3 ++ be32 2, encTable := id, decTable := id }
  text := { ntop4 := id, ntop6 := id, corkIpInit := fun _ => none, pton4 := fun _ => none, pton6 := fun _ => none }
  auth := false
  acl := none
  tcpOnly := true
  vpn := false

/-- A greeting and a request for 10.0.0.1:80 with two bytes of payload. -/
def pipelinedRequest (connect : ConnectResult) : List Event :=
  [.serverRecv { recv := .data shortGreeting },
   .serverRecv { recv := .data { bytes := [5, 1, 0, 1, 10, 0, 0, 1, 0, 80, 65, 66] }, connect }]

/-- A connection that is reported later and takes three bytes at first. -/
theorem upstream_intact_delayed : ∃ conn,
    (machine rc4Config).run (acceptCb rc4Config []) (pipelinedRequest .inProgress ++ [.remoteSend true (.short 3)]) =
      some (.ok conn) ∧
    conn.up.accepted.length = 3 ∧ conn.up.produced.length = 9 ∧ conn.up.Intact := by
  have ran : (machine rc4Config).leadsTo (acceptCb rc4Config [])
      (pipelinedRequest .inProgress ++ [.remoteSend true (.short 3)])
      (fun conn => conn.up.accepted.length == 3 && conn.up.produced.length == 9) = true := by decide +kernel
  obtain ⟨conn, ran, lens⟩ := Machine.exists_of_leadsTo ran
  rw [Bool.and_eq_true, beq_iff_eq, beq_iff_eq] at lens
  refine ⟨conn, ran, lens.1, lens.2, upstream_intact rc4Config [] conn (Machine.Reach.of_run .refl ?_ ran)⟩
  intro e mem s
  simp only [pipelinedRequest, List.cons_append, List.nil_append, List.mem_cons, List.not_mem_nil, or_false] at mem
  obtain rfl | rfl | rfl := mem
  · exact fun _ => ⟨rfl, rfl⟩
  · exact fun _ => ⟨rfl, rfl⟩
  · exact trivial

/-- A `connect` that succeeds at once, on a socket that then takes three of nine bytes:
the write watcher is not started, and the client goes on being read. -/
theorem upstream_not_intact : ∃ conn, (machine rc4Config).Reach (fun _ _ => True) (acceptCb rc4Config []) conn ∧
    (machine rc4Config).run (acceptCb rc4Config []) (pipelinedRequest (.immediate true (.short 3))) =
      some (.ok conn) ∧
    ¬ conn.up.Intact := by
  have ran : (machine rc4Config).leadsTo (acceptCb rc4Config []) (pipelinedRequest (.immediate true (.short 3)))
      (fun conn => !conn.up.Intact) = true := by decide +kernel
  obtain ⟨conn, ran, lost⟩ := Machine.exists_of_leadsTo ran
  refine ⟨conn, Machine.Reach.of_run .refl (fun _ _ _ => trivial) ran, ran, ?_⟩
  simpa using lost

/-! ## Downstream -/

/-- Downstream nothing is pending, and the remote is not read, before the connection is
there: until then `server->buf` serves the handshake. -/
structure DownInv (conn : Conn P) : Prop where
  ok : conn.down.Ok
  waiting : conn.connected = false → conn.down.draining = false ∧ conn.down.filling = false

theorem serverRecvCb_down {e : ServerRecv} (inv : DownInv conn) (h : serverRecvCb C conn e = .ok conn') :
    DownInv conn' := by
  obtain rfl | ⟨-, on, down, -⟩ | ⟨off, -, -, -, buf, down⟩ | ⟨off, mid, r, fresh, at_, -, ⟨buf, down⟩, opened⟩ :=
    serverRecvCb_cases h
  · exact inv
  · constructor
    · rw [down]
      exact inv.ok
    · intro off
      rw [on] at off
      cases off
  · obtain ⟨idle, unread⟩ := inv.waiting off
    constructor
    · rw [down]
      exact inv.ok.reuse idle buf _
    · intro _
      rw [down]
      exact ⟨idle, unread⟩
  · obtain ⟨idle, unread⟩ := inv.waiting off
    have after := openRemote_down at_ fresh opened
    rw [down] at after
    dsimp only at after
    rw [unread, Bool.false_or] at after
    constructor
    · rw [after]
      exact inv.ok.reuse idle buf _
    · intro off'
      rw [after]
      exact ⟨idle, off'⟩

/-- Until the remote is connected the buffer belongs to the other direction, so nothing is waiting
in it for the application. -/
theorem fire_down {e : Event} (inv : DownInv conn) (on : enabled conn e = true) (h : fire C conn e = .ok conn') :
    DownInv conn' := by
  cases e with
  | serverRecv e => exact serverRecvCb_down inv h
  | serverSend send =>
    have draining : conn.down.draining = true := on
    obtain ⟨down, drained, h⟩ := bind_eq_ok.mp h
    cases h
    refine ⟨Pipe.drain_ok inv.ok draining drained, ?_⟩
    intro off
    have idle := (inv.waiting off).1
    rw [draining] at idle
    cases idle
  | remoteRecv e =>
    have filling : conn.down.filling = true := on
    obtain ⟨r, found, h⟩ := bind_eq_ok.mp h
    rw [orCrash_eq_ok, deref_eq_ok] at found
    obtain ⟨-, same, down | ⟨buf, pushed⟩⟩ := remoteRecvCb_cases found h
    · constructor
      · rw [down]
        exact inv.ok
      · intro off
        rw [down]
        exact inv.waiting (same ▸ off)
    · have fresh := Pipe.Fresh.produce (inv.ok.delivered filling) buf
      refine ⟨Pipe.push_ok fresh (inv.ok.not_draining filling) pushed, ?_⟩
      intro off
      have unread := (inv.waiting (same ▸ off)).2
      rw [filling] at unread
      cases unread
  | remoteSend peer send =>
    obtain ⟨r, found, h⟩ := bind_eq_ok.mp h
    rw [orCrash_eq_ok, deref_eq_ok] at found
    have known : conn.connected = r.connected := by rw [Conn.connected, found]; rfl
    cases connected : r.connected with
    | true =>
      obtain ⟨phase, down, -⟩ := remoteSendCb_connected connected h
      constructor
      · rw [down]
        exact inv.ok
      · intro off
        rw [Conn.connected, phase, ← Conn.connected, known, connected] at off
        cases off
    | false =>
      obtain ⟨after, down, -⟩ := remoteSendCb_opening connected h
      have idle := (inv.waiting (known.trans connected)).1
      constructor
      · rw [down]
        exact inv.ok.reuse idle _ _
      · intro off
        rw [after] at off
        cases off
  | remoteTimeout => cases h

theorem acceptCb_down (C : Config P) (iv : Bytes) : DownInv (acceptCb C iv) where
  ok := Pipe.Ok.idle rfl rfl
  waiting _ := ⟨rfl, rfl⟩

/-- Along every run the downstream pipe is in order. -/
theorem down_ok (C : Config P) (iv : Bytes) (conn : Conn P)
    (reach : (machine C).Reach (fun _ _ => True) (acceptCb C iv) conn) : conn.down.Ok := by
  have inv := reach.invariant DownInv (acceptCb_down C iv) fun _ _ _ inv on _ fired => fire_down inv on fired
  exact inv.ok

end Shadowsocks.Local
