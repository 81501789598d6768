import Shadowsocks.Relay.Faults
import Shadowsocks.Server.Upstream

/-!
# The stages of ss-server

`server_recv_cb` ends the process if it runs in stage 4, and follows `server->remote`
without asking whether there is one. What protects it is that stage 4 stops the read
watcher of the client. One path forgets to: when `connect` succeeds immediately in stage
0 and the `send` inside `remote_send_cb` is cut, stage 4 goes on with the watcher active.
-/

namespace Shadowsocks.Server
set_option autoImplicit false
open Lib

variable {P : Platform} {C : Config P} {conn conn' : Conn P}

/-- `server->stage`. -/
def Conn.stage (conn : Conn P) : Nat :=
  match conn.phase with
  | .init => 0
  | .resolving => 4
  | .connecting _ => 4
  | .stream => 5

/-- `server->remote`, of which only `send_ctx->connected` is shown. -/
def Conn.remote (conn : Conn P) : Option Bool :=
  match conn.phase with
  | .init => none
  | .resolving => none
  | .connecting connected => some connected
  | .stream => some true

/-- In stage 0, the `send` inside the callback that connects is not cut. -/
def stopsReading (conn : Conn P) : Event → Prop
  | .serverRecv _ o => conn.phase = .init → o.connectsWhole = true
  | _ => True

/-- The client is read in stages 0 and 5 only. -/
def Staged (conn : Conn P) : Prop := conn.up.filling = true → conn.phase = .init ∨ conn.phase = .stream

/-! ## Stage 4 does not read -/

/-- Whatever is sent, the client is read again only when stage 4 is over. -/
theorem sendPending_staged {send : SendResult} (staged : Staged conn) (h : sendPending conn send = .ok conn') :
    Staged conn' := by
  obtain ⟨up, drained, ⟨-, -, rfl⟩ | ⟨more, rfl⟩⟩ := sendPending_cases h
  · exact fun _ => .inr rfl
  · intro reading
    rcases more with stream | some_
    · exact .inr stream
    · obtain ⟨-, ⟨-, rfl⟩ | ⟨s, -, -, rfl⟩ | ⟨-, rfl⟩⟩ := Pipe.drain_cases drained
      · exact staged reading
      · exact staged reading
      · exact absurd rfl some_

/-- The last piece of a payload starts the read watcher again, and the stage is 5 by then. -/
theorem remoteSendCb_staged {peer : Bool} {send : SendResult} (staged : Staged conn)
    (h : remoteSendCb conn peer send = .ok conn') : Staged conn' := by
  by_cases at_ : conn.phase = .connecting false
  · obtain ⟨empty, rfl⟩ | sent := remoteSendCb_opening at_ h
    · exact fun _ => .inr rfl
    · refine sendPending_staged ?_ sent
      intro reading
      rcases staged reading with no | no
      · rw [at_] at no
        cases no
      · rw [at_] at no
        cases no
  · unfold remoteSendCb at h
    rw [if_neg at_] at h
    exact sendPending_staged staged h

/-- Where the watcher is not left active, stage 4 is entered with it stopped. -/
theorem serverRecvCb_staged {e : RecvEvent} {o : Opening} (staged : Staged conn)
    (may : stopsReading conn (.serverRecv e o)) (h : serverRecvCb C conn e o = .ok conn') : Staged conn' := by
  by_cases at_ : conn.phase = .init
  · obtain ⟨at', -, -⟩ | ⟨buf, -, -, -, up⟩ |
      ⟨mid, buf, buf', taken, inline, last, attached, connected, -, -, rest⟩ := serverRecvCb_init at_ h
    · exact fun _ => .inl at'
    · intro reading
      rw [up] at reading
      cases reading
    · rcases rest with ⟨peer, send, rfl, h⟩ | ⟨-, rfl⟩
      · -- the inline call: the read watcher is still active, and stage 4 must be over
        obtain ⟨rbuf, sbuf, rfl, -⟩ := attachRemote_cases attached
        obtain ⟨-, -, reported⟩ | ⟨s, -, -, no, -⟩ := connectToRemote_cases connected
        · obtain ⟨slow, immediate⟩ := reported peer send rfl
          have whole := may at_
          rw [Opening.connectsWhole, slow, Bool.false_or, immediate] at whole
          exact fun _ => .inr (remoteSendCb_inline rfl whole h).1
        · cases no
      · intro reading
        cases reading
  · obtain rfl | ⟨-, stream, -⟩ := serverRecvCb_late at_ h
    · exact staged
    · exact fun _ => .inr stream

/-- The resolver is asked in stage 4, and its answer ends it. -/
theorem serverResolveCb_staged {found : Bool} {o : Opening} (staged : Staged conn) (at_ : conn.phase = .resolving)
    (h : serverResolveCb conn found o = .ok conn') : Staged conn' := by
  obtain ⟨buf, taken, inline, last, attached, -, rest⟩ := serverResolveCb_cases h
  obtain ⟨rbuf, sbuf, rfl, -⟩ := attachRemote_cases attached
  have unread : conn.up.filling ≠ true := by
    intro reading
    rcases staged reading with no | no
    · rw [at_] at no
      cases no
    · rw [at_] at no
      cases no
  rcases rest with ⟨peer, send, -, h⟩ | ⟨-, rfl⟩
  · refine remoteSendCb_staged ?_ h
    exact fun reading => absurd reading unread
  · exact fun reading => absurd reading unread

/-- Every event keeps the invariant, by the lemma for its callback. -/
theorem fire_staged {e : Event} (staged : Staged conn) (on : enabled conn e = true) (may : stopsReading conn e)
    (h : fire C conn e = .ok conn') : Staged conn' := by
  cases e with
  | serverRecv e o => exact serverRecvCb_staged staged may h
  | serverSend send =>
    simp only [fire, serverSendCb] at h
    split at h
    · cases h
    · obtain ⟨down, -, h⟩ := bind_eq_ok.mp h
      cases h
      exact staged
  | remoteRecv e =>
    simp only [fire, remoteRecvCb] at h
    split at h
    · cases h
    · cases h
    · cases h
      exact staged
    · obtain ⟨received, -, h⟩ := bind_eq_ok.mp h
      obtain ⟨⟨cipher, eCtx⟩, -, h⟩ := bind_eq_ok.mp h
      obtain ⟨down, -, h⟩ := bind_eq_ok.mp h
      cases h
      exact staged
  | remoteSend peer send => exact remoteSendCb_staged staged h
  | resolved found o => exact serverResolveCb_staged staged (of_decide_eq_true on) h
  | timeout => cases h

/-! ## Only stage 4 is fatal -/

/-- The header's tag is compared in the buffer. -/
theorem verifyHeader_avoids {bad : Fault} [bad.Foreign] (dCtx : Option (EncCtx P)) (buf : Buffer) (atyp : UInt8) :
    Avoids (.crashed bad) (verifyHeader C dCtx buf atyp) := by
  have length : Avoids bad (parseHeaderLen atyp buf) :=
    .ite (avoids_ok _) (.ite (.bind (Buffer.byte_avoids _ _) fun _ => avoids_ok _) (.ite (avoids_ok _) (avoids_ok _)))
  refine .ite (.bind (orCrash_avoids length) fun _ => .ite (by simp) ?_) (avoids_ok _)
  exact .bind (orCrash_avoids (deref_avoids _)) fun _ =>
    .bind (orCrash_avoids (ssOnetimeauthVerify_avoids C.E _ _)) fun _ => .ite (by simp) (avoids_ok _)

/-- The address is read from the buffer. -/
theorem readAddr_avoids {bad : Fault} [bad.Foreign] (buf : Buffer) (atyp : UInt8) : Avoids (.crashed bad) (readAddr buf atyp) := by
  have fixed : ∀ (n m : Nat) (f : Bytes → Address × Nat), Avoids (.crashed bad)
      (if m ≤ buf.len then do let addr ← orCrash (buf.read 1 n); pure (f addr) else .error (.closed .invalidHeader)) :=
    fun n m f => .ite (.bind (orCrash_avoids (Buffer.read_avoids _ _ _)) fun _ => avoids_ok _) (by simp)
  refine .ite (fixed 4 7 fun addr => (.ipv4 addr, 5)) (.ite ?_ (.ite (fixed 16 19 fun addr => (.ipv6 addr, 17)) (by simp)))
  exact .bind (orCrash_avoids (Buffer.byte_avoids _ _)) fun _ =>
    .ite (.bind (orCrash_avoids (Buffer.read_avoids _ _ _)) fun _ => avoids_ok _) (by simp)

/-- Reading the header ends the process in no case. -/
theorem readHeader_avoids {bad : Fault} [bad.Foreign] (dCtx : Option (EncCtx P)) (buf : Buffer) :
    Avoids (.crashed bad) (readHeader C dCtx buf) :=
  .bind (orCrash_avoids (Buffer.byte_avoids _ _)) fun _ => .bind (verifyHeader_avoids _ _ _) fun _ =>
    .bind (readAddr_avoids _ _) fun _ => .bind (orCrash_avoids (Buffer.read_avoids _ _ _)) fun _ =>
      .ite (by simp) (.bind (orCrash_avoids (Buffer.memmove_avoids _ _ _ _)) fun _ => avoids_ok _)

/-- Nor does connecting, -/
theorem connectToRemote_avoids (buf : Buffer) (o : Opening) : Avoids (.crashed .abort) (connectToRemote buf o) := by
  unfold connectToRemote
  refine .ite (by simp) ?_
  dsimp only
  split
  · refine .bind (orCrash_avoids (Buffer.read_avoids _ _ _)) fun _ => .ite (avoids_ok _) ?_
    cases o.connect with
    | failed => simp
    | inProgress => exact avoids_ok _
    | immediate peer send => exact avoids_ok _
  · refine .ite (avoids_ok _) ?_
    cases o.connect with
    | failed => simp
    | inProgress => exact avoids_ok _
    | immediate peer send => exact avoids_ok _

/-- nor handing the payload over, -/
theorem attachRemote_avoids (conn : Conn P) (buf : Buffer) (taken : Bytes) (start : Nat) :
    Avoids (.crashed .abort) (attachRemote conn buf taken start) :=
  .ite (.bind (orCrash_avoids (Buffer.read_avoids _ _ _)) fun _ =>
    .bind (orCrash_avoids (Buffer.write_avoids _ _ _)) fun _ => avoids_ok _) (avoids_ok _)

/-- nor sending it, -/
theorem remoteSendCb_avoids (conn : Conn P) (peer : Bool) (send : SendResult) :
    Avoids (.crashed .abort) (remoteSendCb conn peer send) := by
  have pending : ∀ conn : Conn P, Avoids (.crashed .abort) (sendPending conn send) :=
    fun conn => .bind (drain_avoids _ _) fun _ => .ite (avoids_ok _) (avoids_ok _)
  exact .ite (.ite (.ite (avoids_ok _) (pending _)) (by simp)) (pending _)

/-- so stage 0 does not either. -/
theorem handleHeader_avoids (conn : Conn P) (o : Opening) : Avoids (.crashed .abort) (handleHeader C conn o) := by
  refine .bind (readHeader_avoids _ _) fun ⟨header, _, _⟩ => .bind (checkHash_avoids C.E _ _ _ _) fun ⟨_, _⟩ => ?_
  dsimp only
  cases destination C.text header with
  | query host port => exact avoids_ok _
  | sockaddr ip port =>
    refine .bind (connectToRemote_avoids _ _) fun ⟨_, _, inline⟩ => .bind (attachRemote_avoids _ _ _ _) fun _ => ?_
    cases inline with
    | none => exact avoids_ok _
    | some results => exact remoteSendCb_avoids _ _ _

/-- In stages 0 and 5 `server_recv_cb` does not reach `FATAL`. -/
theorem serverRecvCb_avoids (e : RecvEvent) (o : Opening) (at_ : conn.phase = .init ∨ conn.phase = .stream) :
    Avoids (.crashed .abort) (serverRecvCb C conn e o) := by
  unfold serverRecvCb
  refine .ite (by simp) ?_
  split
  · simp
  · simp
  · exact avoids_ok _
  · split
    · exact .bind (receive_avoids _ _ _) fun _ => .ite (avoids_ok _)
        (.bind (decryptBuf_avoids C.E _ _ _ _) fun _ => handleHeader_avoids _ _)
    · rename_i late
      refine .bind (receive_avoids _ _ _) fun _ => .bind (decryptBuf_avoids C.E _ _ _ _) fun ⟨_, _⟩ => ?_
      dsimp only
      rw [if_pos (at_.resolve_left late)]
      exact .bind (checkHash_avoids C.E _ _ _ _) fun _ => .bind (push_avoids _ _) fun _ => avoids_ok _

/-- The invariant holds in every run that stops reading where it must. -/
theorem staged (C : Config P) (iv : Bytes) (conn : Conn P)
    (reach : (machine C).Reach stopsReading (acceptCb C iv) conn) : Staged conn :=
  reach.invariant Staged (fun _ => .inl rfl) fun _ _ _ inv on may fired => fire_staged inv on may fired

/-- Along every run in which no `send` inside the callback of stage 0 is cut, the client is
read in stages 0 and 5 only, stage 5 has a connected remote, and `server_recv_cb` neither
follows a null remote nor reaches `FATAL`. -/
theorem stage_never_fatal (C : Config P) (iv : Bytes) (conn : Conn P)
    (reach : (machine C).Reach stopsReading (acceptCb C iv) conn) :
    (conn.up.filling = true → conn.stage = 0 ∨ conn.stage = 5) ∧
    (conn.stage = 5 → conn.remote = some true) ∧
    ∀ e o, enabled conn (.serverRecv e o) = true →
      (conn.stage ≠ 0 → conn.remote ≠ none) ∧ fire C conn (.serverRecv e o) ≠ .error (.crashed .abort) := by
  have reads := staged C iv conn reach
  refine ⟨?_, ?_, ?_⟩
  · intro reading
    rcases reads reading with init | stream
    · exact .inl (by rw [Conn.stage, init])
    · exact .inr (by rw [Conn.stage, stream])
  · intro five
    rw [Conn.remote]
    cases at_ : conn.phase with
    | stream => rfl
    | init => simp [Conn.stage, at_] at five
    | resolving => simp [Conn.stage, at_] at five
    | connecting connected => simp [Conn.stage, at_] at five
  · intro e o reading
    have at_ := reads reading
    refine ⟨?_, serverRecvCb_avoids e o at_⟩
    intro late
    rcases at_ with init | stream
    · simp [Conn.stage, init] at late
    · simp [Conn.remote, stream]

/-- The connection is there at once and takes the first payload whole. -/
theorem stage_never_fatal_immediate : ∃ conn,
    (machine tableConfig).run (acceptCb tableConfig []) [literalRequest { connect := .immediate true .full }] =
      some (.ok conn) ∧
    conn.stage = 5 ∧ conn.up.filling = true ∧ ∀ e o, fire tableConfig conn (.serverRecv e o) ≠ .error (.crashed .abort) := by
  have ran : (machine tableConfig).leadsTo (acceptCb tableConfig [])
      [literalRequest { connect := .immediate true .full }]
      (fun conn => conn.stage = 5 ∧ conn.up.filling = true) = true := by decide +kernel
  obtain ⟨conn, ran, up⟩ := Machine.exists_of_leadsTo ran
  obtain ⟨five, reading⟩ := of_decide_eq_true up
  have reach : (machine tableConfig).Reach stopsReading (acceptCb tableConfig []) conn := by
    refine .of_run .refl ?_ ran
    intro e he s
    rw [List.mem_singleton.mp he]
    exact fun _ => rfl
  obtain ⟨-, -, safe⟩ := stage_never_fatal tableConfig [] conn reach
  exact ⟨conn, ran, five, reading, fun e o => (safe e o reading).2⟩

/-- The connection is there at once but its socket takes nothing: stage 4 goes on with the
client read, and the next segment is fatal. -/
theorem stage_fatal : ∃ conn, (machine tableConfig).Reach (fun _ _ => True) (acceptCb tableConfig []) conn ∧
    conn.stage = 4 ∧ enabled conn (.serverRecv { recv := .data { bytes := [69] } } {}) = true ∧
    fire tableConfig conn (.serverRecv { recv := .data { bytes := [69] } } {}) = .error (.crashed .abort) := by
  have ran : (machine tableConfig).leadsTo (acceptCb tableConfig [])
      [literalRequest { connect := .immediate true .wouldBlock }]
      (fun conn => conn.stage = 4 ∧ enabled conn (.serverRecv { recv := .data { bytes := [69] } } {}) = true ∧
        Machine.stopsWith (.crashed .abort) (fire tableConfig conn (.serverRecv { recv := .data { bytes := [69] } } {})) =
          true) = true := by decide +kernel
  obtain ⟨conn, ran, dead⟩ := Machine.exists_of_leadsTo ran
  obtain ⟨four, reading, stops⟩ := of_decide_eq_true dead
  exact ⟨conn, .of_run .refl (fun _ _ _ => trivial) ran, four, reading, Machine.eq_error_of_stopsWith stops⟩

end Shadowsocks.Server
