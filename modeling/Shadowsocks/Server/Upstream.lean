import Shadowsocks.Encrypt.CheckHash
import Shadowsocks.Encrypt.Openssl
import Shadowsocks.Server.Relay

/-!
# The upstream direction of ss-server

The first payload waits in `server->buf` for the resolver, and is handed over to
`remote->buf` when the destination is being connected. There are two copies of the
hand-over. That of stage 0 copies from the start of the buffer, although `sendto` with
`MSG_FASTOPEN` may have moved the index; both call `remote_send_cb` at once if `connect`
succeeded, and the exits of that callback leave the watchers as they are. Where neither
matters, nothing is lost on the way to the destination and stage 4 never reads.
-/

namespace Shadowsocks.Server
set_option autoImplicit false
open Lib

variable {P : Platform} {C : Config P} {conn conn' : Conn P}

/-! ## What the steps of a callback can do -/

theorem checkHash_idx {E : Encryptor P} {on : Bool} {ctx : Option (EncCtx P)} {buf out : Buffer} {chunk chunk' : Chunk}
    (h : checkHash E on ctx buf chunk = .ok (out, chunk')) : out.idx = buf.idx := by
  unfold checkHash at h
  split at h
  · obtain ⟨c, -, h⟩ := bind_eq_ok.mp h
    obtain ⟨r, call, h⟩ := bind_eq_ok.mp h
    rw [orCrash_eq_ok] at call
    split at h
    · cases h
    · cases h
      exact ssCheckHash_idx call
  · cases h
    rfl

theorem readHeader_idx {dCtx : Option (EncCtx P)} {buf out : Buffer} {header : Header} {auth : Bool}
    (h : readHeader C dCtx buf = .ok (header, out, auth)) : out.idx = buf.idx := by
  obtain ⟨atyp, -, h⟩ := bind_eq_ok.mp h
  obtain ⟨verified, -, h⟩ := bind_eq_ok.mp h
  obtain ⟨⟨addr, offset⟩, -, h⟩ := bind_eq_ok.mp h
  obtain ⟨port, -, h⟩ := bind_eq_ok.mp h
  generalize (if verified then onetimeauthBytes else 0) = tag at h
  dsimp only at h
  split at h
  · cases h
  · obtain ⟨moved, shifted, h⟩ := bind_eq_ok.mp h
    rw [orCrash_eq_ok] at shifted
    cases h
    have same := Buffer.memmove_idx shifted
    exact same

/-- The two outcomes of `connect_to_remote` that leave the connection open: nothing has
been sent yet, or `sendto` took the first `s` bytes. -/
theorem connectToRemote_cases {buf buf' : Buffer} {taken : Bytes} {o : Opening} {inline : Option (Bool × SendResult)}
    (h : connectToRemote buf o = .ok (buf', taken, inline)) :
    (buf' = buf ∧ taken = [] ∧ ∀ peer send, inline = some (peer, send) →
      (o.fastOpen && o.sendto ≠ .unsupported) = false ∧ o.connect = .immediate peer send) ∨
    (∃ s, o.fastOpen = true ∧ o.sendto.count buf.len = some s ∧ inline = none ∧ taken = buf.pending.take s ∧
      buf' = { buf with idx := buf.idx + s, len := buf.len - s }) := by
  unfold connectToRemote at h
  split at h
  · cases h
  · dsimp only at h
    split at h
    · rename_i s fast count
      obtain ⟨data, read, h⟩ := bind_eq_ok.mp h
      rw [orCrash_eq_ok, Buffer.read, load] at read
      split at read
      · cases read
        have reported : (o.fastOpen && o.sendto ≠ .unsupported) = true := by
          rw [fast, Bool.true_and, decide_eq_true_eq]
          intro no
          rw [no] at count
          cases count
        rw [pure_eq_ok, ok_bind] at h
        dsimp only at h
        rw [if_pos reported] at h
        cases h
        exact .inr ⟨s, fast, count, rfl, rfl, rfl⟩
      · cases read
    · rw [pure_eq_ok, ok_bind] at h
      dsimp only at h
      left
      split at h
      · cases h
        refine ⟨rfl, rfl, ?_⟩
        intro peer send no
        cases no
      · rename_i off
        rw [Bool.not_eq_true] at off
        split at h
        · cases h
        · cases h
          refine ⟨rfl, rfl, ?_⟩
          intro peer send no
          cases no
        · rename_i peer send immediate
          cases h
          refine ⟨rfl, rfl, ?_⟩
          intro peer' send' same
          cases same
          exact ⟨off, immediate⟩

/-- The new remote holds what was copied. -/
theorem attachRemote_cases {buf : Buffer} {taken : Bytes} {start : Nat} (h : attachRemote conn buf taken start = .ok conn') :
    ∃ rbuf sbuf, conn' = { conn with
        phase := .connecting false
        up := { conn.up with accepted := conn.up.accepted ++ taken, buf := rbuf }
        down := { conn.down with buf := sbuf } } ∧ rbuf.pending = window buf.array start buf.len := by
  unfold attachRemote at h
  dsimp only at h
  split at h
  · obtain ⟨data, read, h⟩ := bind_eq_ok.mp h
    obtain ⟨rbuf, wrote, h⟩ := bind_eq_ok.mp h
    rw [orCrash_eq_ok] at read wrote
    cases h
    refine ⟨_, _, rfl, ?_⟩
    have len := Buffer.read_length read
    rw [Buffer.read, load] at read
    split at read
    · cases read
      have idx : rbuf.idx = 0 := Buffer.write_idx wrote
      rw [Buffer.write, store] at wrote
      split at wrote
      · cases wrote
        dsimp only [Buffer.pending]
        rw [idx]
        have copied := window_splice_self (balloc P.junk bufSize).array (window buf.array start buf.len) 0 (Nat.zero_le _)
        rw [len] at copied
        exact copied
      · cases wrote
    · cases read
  · rename_i empty
    have none_ : buf.len = 0 := by omega
    cases h
    refine ⟨_, _, rfl, ?_⟩
    rw [none_, window_nil]
    exact window_nil _ _

/-- Stage 4 is over, or the write watcher has more to do. -/
theorem sendPending_cases {send : SendResult} (h : sendPending conn send = .ok conn') :
    ∃ up, conn.up.drain send = .ok up ∧
      ((conn.phase ≠ .stream ∧ up.buf.len = 0 ∧ conn' = toStream { conn with up }) ∨
        ((conn.phase = .stream ∨ up.buf.len ≠ 0) ∧ conn' = { conn with up })) := by
  obtain ⟨up, drained, h⟩ := bind_eq_ok.mp h
  refine ⟨up, drained, ?_⟩
  dsimp only at h
  split at h
  · rename_i done
    cases h
    exact .inl ⟨done.2, done.1, rfl⟩
  · rename_i more
    cases h
    refine .inr ⟨?_, rfl⟩
    by_cases stream : conn.phase = .stream
    · exact .inl stream
    · exact .inr fun none_ => more ⟨none_, stream⟩

/-- What `remote_send_cb` does when the connection is reported. -/
theorem remoteSendCb_opening {peer : Bool} {send : SendResult} (at_ : conn.phase = .connecting false)
    (h : remoteSendCb conn peer send = .ok conn') :
    (conn.up.buf.len = 0 ∧ conn' = toStream { conn with up := conn.up.resume }) ∨
    sendPending { conn with phase := .connecting true } send = .ok conn' := by
  unfold remoteSendCb at h
  rw [if_pos at_] at h
  split at h
  · split at h
    · rename_i empty
      cases h
      exact .inl ⟨empty, rfl⟩
    · exact .inr h
  · cases h

/-- The inline call, if the first `send` is not cut, ends stage 4 with all of the buffer
sent. -/
theorem remoteSendCb_inline {peer : Bool} {send : SendResult} (at_ : conn.phase = .connecting false)
    (whole : (ConnectResult.immediate peer send).whole = true) (h : remoteSendCb conn peer send = .ok conn') :
    conn'.phase = .stream ∧ conn'.up.produced = conn.up.produced ∧ conn'.up.draining = false ∧
      conn'.up.accepted = conn.up.accepted ++ conn.up.buf.pending := by
  obtain ⟨empty, rfl⟩ | sent := remoteSendCb_opening at_ h
  · refine ⟨rfl, rfl, rfl, ?_⟩
    rw [Buffer.pending, empty, window_nil, List.append_nil]
    rfl
  · obtain ⟨up, drained, ⟨-, -, rfl⟩ | ⟨still, -⟩⟩ := sendPending_cases sent
    · rw [Pipe.drain_whole whole drained]
      exact ⟨rfl, rfl, rfl, rfl⟩
    · rw [Pipe.drain_whole whole drained] at still
      rcases still with no | no
      · cases no
      · exact absurd rfl no

/-- All that `server_recv_cb` can do to a connection in stage 0. -/
theorem serverRecvCb_init {e : RecvEvent} {o : Opening} (at_ : conn.phase = .init)
    (h : serverRecvCb C conn e o = .ok conn') :
    (conn'.phase = .init ∧ conn'.up = conn.up ∧ conn'.down.buf.idx = conn.down.buf.idx) ∨
    (∃ buf, conn'.phase = .resolving ∧ buf.idx = conn.down.buf.idx ∧ conn'.down.buf = buf ∧
      conn'.up = { conn.up with filling := false, produced := conn.up.produced ++ buf.bytes }) ∨
    (∃ mid buf buf' taken inline last, attachRemote mid buf' taken 0 = .ok last ∧
      connectToRemote buf o = .ok (buf', taken, inline) ∧ buf.idx = conn.down.buf.idx ∧
      mid.up = { conn.up with produced := conn.up.produced ++ buf.bytes } ∧
      ((∃ peer send, inline = some (peer, send) ∧ remoteSendCb last peer send = .ok conn') ∨
        (inline = none ∧ conn' = { last with up := last.up.await }))) := by
  have start : conn.phase ≠ .resolving := by
    rw [at_]
    exact fun no => by cases no
  unfold serverRecvCb at h
  rw [if_neg start] at h
  split at h
  · cases h
  · cases h
  · cases h
    exact .inl ⟨at_, rfl, rfl⟩
  · rw [if_pos at_] at h
    obtain ⟨down, received, h⟩ := bind_eq_ok.mp h
    obtain ⟨rbuf, wrote, received⟩ := bind_eq_ok.mp received
    rw [orCrash_eq_ok] at wrote
    have idx := Buffer.write_idx wrote
    cases received
    split at h
    · cases h
      exact .inl ⟨at_, rfl, idx⟩
    · obtain ⟨⟨plain, dCtx⟩, decrypted, h⟩ := bind_eq_ok.mp h
      obtain ⟨⟨header, rest, auth⟩, read, h⟩ := bind_eq_ok.mp h
      obtain ⟨⟨buf, chunk⟩, checked, h⟩ := bind_eq_ok.mp h
      have same : buf.idx = conn.down.buf.idx :=
        ((checkHash_idx checked).trans (readHeader_idx read)).trans ((decryptBuf_idx decrypted).trans idx)
      dsimp only at h
      split at h
      · cases h
        exact .inr (.inl ⟨buf, rfl, same, rfl, rfl⟩)
      · obtain ⟨⟨buf', taken, inline⟩, connected, h⟩ := bind_eq_ok.mp h
        obtain ⟨last, attached, h⟩ := bind_eq_ok.mp h
        refine .inr (.inr ⟨_, buf, buf', taken, inline, last, attached, connected, same, rfl, ?_⟩)
        dsimp only at h
        split at h
        · exact .inl ⟨_, _, rfl, h⟩
        · cases h
          exact .inr ⟨rfl, rfl⟩

/-- All that `server_recv_cb` can do to a connection in stage 5. In stage 4 it does not
return. -/
theorem serverRecvCb_late {e : RecvEvent} {o : Opening} (late : conn.phase ≠ .init)
    (h : serverRecvCb C conn e o = .ok conn') :
    conn' = conn ∨ (conn.phase = .stream ∧ conn'.phase = .stream ∧
      ∃ buf, ({ conn.up with buf } : Pipe).produce.push e.send = .ok conn'.up) := by
  unfold serverRecvCb at h
  split at h
  · cases h
  · split at h
    · cases h
    · cases h
    · cases h
      exact .inl rfl
    · obtain ⟨up, received, h⟩ := bind_eq_ok.mp h
      obtain ⟨rbuf, -, received⟩ := bind_eq_ok.mp received
      cases received
      obtain ⟨⟨plain, dCtx⟩, -, h⟩ := bind_eq_ok.mp h
      dsimp only at h
      split at h
      · rename_i stream
        obtain ⟨⟨buf, chunk⟩, -, h⟩ := bind_eq_ok.mp h
        obtain ⟨up', pushed, h⟩ := bind_eq_ok.mp h
        cases h
        exact .inr ⟨stream, stream, buf, pushed⟩
      · cases h

/-- The answer of the resolver: the hand-over of stage 4. -/
theorem serverResolveCb_cases {found : Bool} {o : Opening} (h : serverResolveCb conn found o = .ok conn') :
    ∃ buf taken inline last, attachRemote conn buf taken buf.idx = .ok last ∧
      connectToRemote conn.down.buf o = .ok (buf, taken, inline) ∧
      ((∃ peer send, inline = some (peer, send) ∧ remoteSendCb last peer send = .ok conn') ∨
        (inline = none ∧ conn' = { last with up := { last.up with draining := true } })) := by
  unfold serverResolveCb at h
  split at h
  · obtain ⟨⟨buf, taken, inline⟩, connected, h⟩ := bind_eq_ok.mp h
    obtain ⟨last, attached, h⟩ := bind_eq_ok.mp h
    refine ⟨buf, taken, inline, last, attached, connected, ?_⟩
    dsimp only at h
    split at h
    · exact .inl ⟨_, _, rfl, h⟩
    · cases h
      exact .inr ⟨rfl, rfl⟩
  · cases h

/-! ## Nothing is lost -/

/-- The data of the `SYN` is taken whole or not at all. -/
def SendtoResult.whole : SendtoResult → Bool
  | .short n => n = 0
  | _ => true

/-- If `connect` is called and succeeds immediately, the `send` that follows is not cut. -/
def Opening.connectsWhole (o : Opening) : Bool := (o.fastOpen && o.sendto ≠ .unsupported) || o.connect.whole

/-- The first payload is not cut: not by the `send` inside the callback that connects, and
in stage 0 not by `sendto`. -/
def opensWhole (conn : Conn P) : Event → Prop
  | .serverRecv _ o => conn.phase = .init → o.connectsWhole = true ∧ (o.fastOpen = true → o.sendto.whole = true)
  | .resolved _ o => o.connectsWhole = true
  | _ => True

/-- Where the payload is that the destination has not accepted yet. -/
def Held (conn : Conn P) : Prop :=
  conn.up.accepted <+: conn.up.produced ∧ (conn.up.accepted.length < conn.up.produced.length →
    if conn.phase = .resolving then conn.up.produced = conn.up.accepted ++ conn.down.buf.pending
    else conn.up.produced = conn.up.accepted ++ conn.up.buf.pending ∧ conn.up.draining = true ∧ conn.up.filling = false)

instance (conn : Conn P) : Decidable (Held conn) := inferInstanceAs (Decidable (_ ∧ (_ → _)))

/-- The state of the upstream direction between callbacks. -/
def UpInv (conn : Conn P) : Prop :=
  match conn.phase with
  | .init => conn.up.produced = conn.up.accepted ∧ conn.up.draining = false ∧ conn.down.buf.idx = 0
  | .resolving => conn.up.produced = conn.up.accepted ++ conn.down.buf.pending ∧ conn.up.draining = false ∧
      conn.up.filling = false
  | .connecting _ => conn.up.Ok ∧ conn.up.draining = true
  | .stream => conn.up.Ok

theorem UpInv.init (inv : UpInv conn) (at_ : conn.phase = .init) :
    conn.up.produced = conn.up.accepted ∧ conn.up.draining = false ∧ conn.down.buf.idx = 0 := by
  rw [UpInv, at_] at inv
  exact inv

theorem UpInv.resolving (inv : UpInv conn) (at_ : conn.phase = .resolving) :
    conn.up.produced = conn.up.accepted ++ conn.down.buf.pending ∧ conn.up.draining = false ∧
      conn.up.filling = false := by
  rw [UpInv, at_] at inv
  exact inv

/-- Stage 5 asks only that the pipe is in order. -/
theorem UpInv.of_stream (at_ : conn.phase = .stream) (ok : conn.up.Ok) : UpInv conn := by
  rw [UpInv, at_]
  exact ok

theorem UpInv.of_connecting {connected : Bool} (at_ : conn.phase = .connecting connected) (ok : conn.up.Ok)
    (on : conn.up.draining = true) : UpInv conn := by
  rw [UpInv, at_]
  exact ⟨ok, on⟩

theorem UpInv.held (inv : UpInv conn) : Held conn := by
  unfold Held
  rw [UpInv] at inv
  cases at_ : conn.phase with
  | init =>
    rw [at_] at inv
    rw [inv.1]
    exact ⟨List.prefix_rfl, fun no => absurd no (Nat.lt_irrefl _)⟩
  | resolving =>
    rw [at_] at inv
    exact ⟨⟨_, inv.1.symm⟩, fun _ => inv.1⟩
  | connecting connected =>
    rw [at_] at inv
    exact inv.1.intact
  | stream =>
    rw [at_] at inv
    exact Pipe.Ok.intact inv

/-- The write watcher is active only in the stages with a remote. -/
theorem UpInv.ok (inv : UpInv conn) (on : conn.up.draining = true) :
    conn.up.Ok ∧ (conn.phase = .stream ∨ ∃ connected, conn.phase = .connecting connected) := by
  rw [UpInv] at inv
  cases at_ : conn.phase with
  | init =>
    rw [at_] at inv
    rw [inv.2.1] at on
    cases on
  | resolving =>
    rw [at_] at inv
    rw [inv.2.1] at on
    cases on
  | connecting connected =>
    rw [at_] at inv
    exact ⟨inv.1, .inr ⟨connected, rfl⟩⟩
  | stream =>
    rw [at_] at inv
    exact ⟨inv, .inl rfl⟩

theorem sendPending_up {send : SendResult} (ok : conn.up.Ok) (on : conn.up.draining = true)
    (at_ : conn.phase = .stream ∨ ∃ connected, conn.phase = .connecting connected)
    (h : sendPending conn send = .ok conn') : UpInv conn' := by
  obtain ⟨up, drained, ⟨-, -, rfl⟩ | ⟨more, rfl⟩⟩ := sendPending_cases h
  · exact .of_stream rfl (Pipe.drain_ok ok on drained)
  · rcases at_ with at_ | ⟨connected, at_⟩
    · exact .of_stream at_ (Pipe.drain_ok ok on drained)
    · refine .of_connecting at_ (Pipe.drain_ok ok on drained) ?_
      obtain ⟨-, ⟨-, rfl⟩ | ⟨s, -, -, rfl⟩ | ⟨-, rfl⟩⟩ := Pipe.drain_cases drained
      · exact on
      · exact on
      · rcases more with no | no
        · rw [at_] at no
          cases no
        · exact absurd rfl no

theorem remoteSendCb_up {peer : Bool} {send : SendResult} (inv : UpInv conn) (on : conn.up.draining = true)
    (h : remoteSendCb conn peer send = .ok conn') : UpInv conn' := by
  obtain ⟨ok, remote⟩ := inv.ok on
  by_cases at_ : conn.phase = .connecting false
  · obtain ⟨empty, rfl⟩ | sent := remoteSendCb_opening at_ h
    · exact .of_stream rfl (Pipe.resume_ok ok on empty)
    · have ok' : ({ conn with phase := .connecting true } : Conn P).up.Ok := ok
      exact sendPending_up ok' on (.inr ⟨true, rfl⟩) sent
  · unfold remoteSendCb at h
    rw [if_neg at_] at h
    exact sendPending_up ok on remote h

/-- Both copies of the hand-over: what `sendto` left is copied, and waits for the
connection or is sent at once. -/
theorem handOver_up {mid last : Conn P} {buf buf' : Buffer} {taken : Bytes} {start : Nat} {o : Opening}
    {inline : Option (Bool × SendResult)} (attached : attachRemote mid buf' taken start = .ok last)
    (connected : connectToRemote buf o = .ok (buf', taken, inline))
    (produced : mid.up.produced = mid.up.accepted ++ buf.pending) (whole : o.connectsWhole = true)
    (copied : buf'.idx = start ∨ buf'.len = 0) :
    last.phase = .connecting false ∧ last.up.produced = last.up.accepted ++ last.up.buf.pending ∧
      ∀ peer send, inline = some (peer, send) → (ConnectResult.immediate peer send).whole = true := by
  obtain ⟨rbuf, sbuf, rfl, pending⟩ := attachRemote_cases attached
  have rest : rbuf.pending = buf'.pending := by
    rw [pending, Buffer.pending]
    rcases copied with same | none_
    · rw [same]
    · rw [none_, window_nil, window_nil]
  obtain ⟨rfl, rfl, reported⟩ | ⟨s, -, -, rfl, rfl, rfl⟩ := connectToRemote_cases connected
  · refine ⟨rfl, ?_, ?_⟩
    · dsimp only
      rw [rest, produced, List.append_nil]
    · intro peer send same
      obtain ⟨slow, immediate⟩ := reported peer send same
      rw [Opening.connectsWhole, slow, Bool.false_or, immediate] at whole
      exact whole
  · refine ⟨rfl, ?_, ?_⟩
    · dsimp only
      rw [rest, produced, Pipe.pending_take, List.append_assoc, Buffer.pending, List.take_append_drop]
    · intro peer send no
      cases no

/-- A hand-over that is sent at once. -/
theorem inline_up {peer : Bool} {send : SendResult} (at_ : conn.phase = .connecting false)
    (produced : conn.up.produced = conn.up.accepted ++ conn.up.buf.pending)
    (whole : (ConnectResult.immediate peer send).whole = true) (h : remoteSendCb conn peer send = .ok conn') :
    UpInv conn' := by
  obtain ⟨stream, same, off, sent⟩ := remoteSendCb_inline at_ whole h
  apply UpInv.of_stream stream
  apply Pipe.Ok.idle
  · rw [same, sent, produced]
  · exact off

/-- `sendto` left nothing in the buffer, or the index where it was. -/
theorem connectToRemote_whole {buf buf' : Buffer} {taken : Bytes} {o : Opening} {inline : Option (Bool × SendResult)}
    (whole : o.fastOpen = true → o.sendto.whole = true) (h : connectToRemote buf o = .ok (buf', taken, inline)) :
    buf'.idx = buf.idx ∨ buf'.len = 0 := by
  obtain ⟨rfl, -, -⟩ | ⟨s, fast, count, -, -, rfl⟩ := connectToRemote_cases h
  · exact .inl rfl
  · have cut := whole fast
    cases result : o.sendto with
    | full =>
      rw [result] at count
      cases count
      exact .inr (Nat.sub_self _)
    | short n =>
      rw [result] at count cut
      have none_ : n = 0 := of_decide_eq_true cut
      subst none_
      cases count
      left
      simp
    | inProgress => rw [result] at count; cases count
    | unsupported => rw [result] at count; cases count
    | failed => rw [result] at count; cases count

theorem serverRecvCb_up {e : RecvEvent} {o : Opening} (inv : UpInv conn) (filling : conn.up.filling = true)
    (may : opensWhole conn (.serverRecv e o)) (h : serverRecvCb C conn e o = .ok conn') : UpInv conn' := by
  by_cases at_ : conn.phase = .init
  · obtain ⟨same, idle, start⟩ := inv.init at_
    obtain ⟨at', up, idx⟩ | ⟨buf, at', idx, down, up⟩ |
      ⟨mid, buf, buf', taken, inline, last, attached, connected, idx, up, rest⟩ := serverRecvCb_init at_ h
    · rw [UpInv, at', up]
      exact ⟨same, idle, idx.trans start⟩
    · rw [UpInv, at', up, down]
      refine ⟨?_, idle, rfl⟩
      dsimp only
      rw [same, Buffer.pending, idx, start, Buffer.bytes]
    · obtain ⟨connects, sends⟩ := may at_
      have copied := connectToRemote_whole sends connected
      rw [idx, start] at copied
      have produced : mid.up.produced = mid.up.accepted ++ buf.pending := by
        rw [up, Buffer.pending, idx, start]
        exact congrArg (· ++ _) same
      obtain ⟨phase, held, immediate⟩ := handOver_up attached connected produced connects copied
      rcases rest with ⟨peer, send, now, h⟩ | ⟨-, rfl⟩
      · exact inline_up phase held (immediate peer send now) h
      · exact .of_connecting phase ⟨held, rfl⟩ rfl
  · obtain rfl | ⟨stream, stream', buf, pushed⟩ := serverRecvCb_late at_ h
    · exact inv
    · have ok : conn.up.Ok := by
        rw [UpInv, stream] at inv
        exact inv
      exact .of_stream stream' (Pipe.push_ok (Pipe.Fresh.produce (ok.delivered filling) buf) (ok.not_draining filling) pushed)

theorem serverResolveCb_up {found : Bool} {o : Opening} (inv : UpInv conn) (at_ : conn.phase = .resolving)
    (whole : o.connectsWhole = true) (h : serverResolveCb conn found o = .ok conn') : UpInv conn' := by
  obtain ⟨buf, taken, inline, last, attached, connected, rest⟩ := serverResolveCb_cases h
  obtain ⟨produced, -, unread⟩ := inv.resolving at_
  obtain ⟨phase, held, immediate⟩ := handOver_up attached connected produced whole (.inl rfl)
  rcases rest with ⟨peer, send, now, h⟩ | ⟨-, rfl⟩
  · exact inline_up phase held (immediate peer send now) h
  · refine .of_connecting phase ⟨held, ?_⟩ rfl
    obtain ⟨rbuf, sbuf, rfl, -⟩ := attachRemote_cases attached
    exact unread

theorem fire_up {e : Event} (down : DownInv conn) (inv : UpInv conn) (on : enabled conn e = true)
    (may : opensWhole conn e) (h : fire C conn e = .ok conn') : UpInv conn' := by
  cases e with
  | serverRecv e o => exact serverRecvCb_up inv on may h
  | serverSend send =>
    simp only [fire, serverSendCb] at h
    split at h
    · cases h
    · rename_i remote
      obtain ⟨down', -, h⟩ := bind_eq_ok.mp h
      cases h
      rw [UpInv] at inv ⊢
      cases at_ : conn.phase with
      | init => exact absurd (.inl at_) remote
      | resolving => exact absurd (.inr at_) remote
      | connecting connected => rw [at_] at inv; exact inv
      | stream => rw [at_] at inv; exact inv
  | remoteRecv e =>
    have filling : conn.down.filling = true := on
    simp only [fire, remoteRecvCb] at h
    split at h
    · cases h
    · cases h
    · cases h
      exact inv
    · obtain ⟨received, -, h⟩ := bind_eq_ok.mp h
      obtain ⟨⟨cipher, eCtx⟩, -, h⟩ := bind_eq_ok.mp h
      obtain ⟨down', -, h⟩ := bind_eq_ok.mp h
      cases h
      have stream : conn.phase = .stream := by
        by_contra early
        have unread := (down.waiting early).2
        rw [filling] at unread
        cases unread
      rw [UpInv, stream] at inv
      exact .of_stream stream inv
  | remoteSend peer send => exact remoteSendCb_up inv on h
  | resolved found o => exact serverResolveCb_up inv (of_decide_eq_true on) may h
  | timeout => cases h

theorem acceptCb_up (C : Config P) (iv : Bytes) : UpInv (acceptCb C iv) := ⟨rfl, rfl, rfl⟩

/-- Along every run in which the first payload is not cut, the destination has accepted a
prefix of the payload, and what is missing is held: in `server->buf` while the resolver is
asked, and then in `remote->buf` with the write watcher active and the client not read. -/
theorem upstream_held (C : Config P) (iv : Bytes) (conn : Conn P)
    (reach : (machine C).Reach opensWhole (acceptCb C iv) conn) : Held conn := by
  have inv := reach.invariant (fun conn => DownInv conn ∧ UpInv conn) ⟨acceptCb_down C iv, acceptCb_up C iv⟩
    fun _ _ _ inv on may fired => ⟨fire_down inv.1 on fired, fire_up inv.1 inv.2 on may fired⟩
  exact inv.2.held

/-- ss-server with the method `table`. -/
def tableConfig : Config rc4Platform where
  E := unsortedTable
  text := { ntop4 := id, ntop6 := id, corkIpInit := fun _ => none, pton4 := fun _ => none, pton6 := fun _ => none }
  auth := false

/-- A header for 10.0.0.1:80 with four bytes of payload. -/
def literalRequest (o : Opening) : Event :=
  .serverRecv { recv := .data { bytes := [1, 10, 0, 0, 1, 0, 80, 65, 66, 67, 68] } } o

/-- A connection that is reported later and takes one byte at first. -/
theorem upstream_held_delayed : ∃ conn,
    (machine tableConfig).run (acceptCb tableConfig []) [literalRequest {}, .remoteSend true (.short 1)] =
      some (.ok conn) ∧
    conn.up.accepted = [65] ∧ conn.up.produced = [65, 66, 67, 68] ∧ Held conn := by
  have ran : (machine tableConfig).leadsTo (acceptCb tableConfig []) [literalRequest {}, .remoteSend true (.short 1)]
      (fun conn => conn.up.accepted = [65] ∧ conn.up.produced = [65, 66, 67, 68]) = true := by decide +kernel
  obtain ⟨conn, ran, sent⟩ := Machine.exists_of_leadsTo ran
  obtain ⟨one, four⟩ := of_decide_eq_true sent
  refine ⟨conn, ran, one, four, upstream_held tableConfig [] conn (.of_run .refl ?_ ran)⟩
  intro e he s
  rcases List.mem_cons.mp he with rfl | he
  · exact fun _ => ⟨rfl, fun no => by cases no⟩
  · rw [List.mem_singleton.mp he]
    trivial

/-- `sendto` takes one byte of four. The three that are left to send begin with it again. -/
theorem upstream_duplicates : ∃ conn, (machine tableConfig).Reach (fun _ _ => True) (acceptCb tableConfig []) conn ∧
    conn.up.produced = [65, 66, 67, 68] ∧ conn.up.accepted = [65] ∧ conn.up.buf.pending = [65, 66, 67] ∧
    ¬ Held conn := by
  have ran : (machine tableConfig).leadsTo (acceptCb tableConfig [])
      [literalRequest { fastOpen := true, sendto := .short 1 }]
      (fun conn => conn.up.produced = [65, 66, 67, 68] ∧ conn.up.accepted = [65] ∧
        conn.up.buf.pending = [65, 66, 67] ∧ ¬ Held conn) = true := by decide +kernel
  obtain ⟨conn, ran, sent⟩ := Machine.exists_of_leadsTo ran
  exact ⟨conn, .of_run .refl (fun _ _ _ => trivial) ran, of_decide_eq_true sent⟩

end Shadowsocks.Server
