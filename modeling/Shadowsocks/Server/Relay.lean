import Shadowsocks.Server.Conn

/-!
# The downstream direction of ss-server

`server->buf` collects the client's header, holds what followed it while the
destination is resolved and connected, and then carries the answers. The change of use
is safe because the remote is not read before stage 5.

`DownInv` says of every run what the buffer may be used for before stage 5, and what it is from
then on.
-/

namespace Shadowsocks.Server
set_option autoImplicit false
open Lib

variable {P : Platform} {C : Config P} {conn conn' : Conn P}

/-- Before stage 5 nothing is pending downstream and the remote is not read. -/
structure DownInv (conn : Conn P) : Prop where
  ok : conn.down.Ok
  waiting : conn.phase ≠ .stream → conn.down.draining = false ∧ conn.down.filling = false

/-- The buffer of a connection before stage 5 may be put to any use. -/
theorem DownInv.reuse (inv : DownInv conn) (early : conn.phase ≠ .stream) (buf : Buffer)
    (down : conn'.down = { conn.down with buf }) : DownInv conn' := by
  obtain ⟨idle, unread⟩ := inv.waiting early
  constructor
  · rw [down]
    exact inv.ok.reuse idle buf _
  · intro _
    rw [down]
    exact ⟨idle, unread⟩

/-- Stage 5 begins with an empty pipe. -/
theorem DownInv.toStream (inv : DownInv conn) (early : conn.phase ≠ .stream) : DownInv (toStream conn) where
  ok := inv.ok.reuse (inv.waiting early).1 conn.down.buf true
  waiting late := absurd rfl late

/-- Sending what is pending upstream leaves the other direction alone. -/
theorem sendPending_down {send : SendResult} (inv : DownInv conn) (h : sendPending conn send = .ok conn') :
    DownInv conn' := by
  obtain ⟨up, -, h⟩ := bind_eq_ok.mp h
  have same : DownInv { conn with up } := ⟨inv.ok, inv.waiting⟩
  dsimp only at h
  split at h
  · rename_i done
    cases h
    exact same.toStream done.2
  · cases h
    exact same

/-- So does the callback that does it, which only starts and stops watchers of both sides. -/
theorem remoteSendCb_down {peer : Bool} {send : SendResult} (inv : DownInv conn)
    (h : remoteSendCb conn peer send = .ok conn') : DownInv conn' := by
  unfold remoteSendCb at h
  split at h
  · rename_i at_
    have early : conn.phase ≠ .stream := by simp [at_]
    split at h
    · split at h
      · cases h
        have same : DownInv { conn with up := conn.up.resume } := ⟨inv.ok, inv.waiting⟩
        exact same.toStream early
      · refine sendPending_down ?_ h
        exact ⟨inv.ok, fun _ => inv.waiting early⟩
    · cases h
  · exact sendPending_down inv h

/-- The buffer for the client is new when a remote is attached. -/
theorem attachRemote_down {buf : Buffer} {taken : Bytes} {start : Nat} (inv : DownInv conn)
    (early : conn.phase ≠ .stream) (h : attachRemote conn buf taken start = .ok conn') : DownInv conn' := by
  unfold attachRemote at h
  dsimp only at h
  split at h
  · obtain ⟨data, -, h⟩ := bind_eq_ok.mp h
    obtain ⟨rbuf, -, h⟩ := bind_eq_ok.mp h
    cases h
    exact inv.reuse early { buf with len := 0, idx := 0 } rfl
  · cases h
    exact inv.reuse early buf rfl

/-- Stage 0 ends the connection, asks the resolver or attaches a remote. -/
theorem handleHeader_down {o : Opening} (inv : DownInv conn) (early : conn.phase = .init)
    (h : handleHeader C conn o = .ok conn') : DownInv conn' := by
  have early : conn.phase ≠ .stream := by simp [early]
  obtain ⟨⟨header, buf, auth⟩, -, h⟩ := bind_eq_ok.mp h
  obtain ⟨⟨buf', chunk⟩, -, h⟩ := bind_eq_ok.mp h
  dsimp only at h
  split at h
  · cases h
    exact inv.reuse early buf' rfl
  · obtain ⟨⟨sbuf, taken, inline⟩, -, h⟩ := bind_eq_ok.mp h
    obtain ⟨mid, attached, h⟩ := bind_eq_ok.mp h
    have same : DownInv { conn with
        up := { conn.up with produced := conn.up.produced ++ buf'.bytes }
        down := { conn.down with buf := buf' }
        auth := auth
        chunk := chunk
        header := some header } := inv.reuse early buf' rfl
    have inv' := attachRemote_down same early attached
    dsimp only at h
    split at h
    · exact remoteSendCb_down inv' h
    · cases h
      exact ⟨inv'.ok, inv'.waiting⟩

/-- What comes from the client goes upstream. -/
theorem serverRecvCb_down {e : RecvEvent} {o : Opening} (inv : DownInv conn)
    (h : serverRecvCb C conn e o = .ok conn') : DownInv conn' := by
  unfold serverRecvCb at h
  split at h
  · cases h
  · split at h
    · cases h
    · cases h
    · cases h
      exact inv
    · split at h
      · rename_i at_
        have early : conn.phase ≠ .stream := by simp [at_]
        obtain ⟨down, received, h⟩ := bind_eq_ok.mp h
        obtain ⟨buf, -, received⟩ := bind_eq_ok.mp received
        cases received
        split at h
        · cases h
          exact inv.reuse early _ rfl
        · obtain ⟨⟨plain, dCtx⟩, -, h⟩ := bind_eq_ok.mp h
          have same : DownInv { conn with down := { conn.down with buf := plain }, dCtx := dCtx } :=
            inv.reuse early plain rfl
          exact handleHeader_down same at_ h
      · obtain ⟨up, -, h⟩ := bind_eq_ok.mp h
        obtain ⟨⟨buf, dCtx⟩, -, h⟩ := bind_eq_ok.mp h
        dsimp only at h
        split at h
        · obtain ⟨⟨buf', chunk⟩, -, h⟩ := bind_eq_ok.mp h
          obtain ⟨up', -, h⟩ := bind_eq_ok.mp h
          cases h
          exact ⟨inv.ok, inv.waiting⟩
        · cases h

/-- So does the callback of the resolver. -/
theorem serverResolveCb_down {found : Bool} {o : Opening} (inv : DownInv conn) (early : conn.phase = .resolving)
    (h : serverResolveCb conn found o = .ok conn') : DownInv conn' := by
  have early : conn.phase ≠ .stream := by simp [early]
  unfold serverResolveCb at h
  split at h
  · obtain ⟨⟨sbuf, taken, inline⟩, -, h⟩ := bind_eq_ok.mp h
    obtain ⟨mid, attached, h⟩ := bind_eq_ok.mp h
    have inv' := attachRemote_down inv early attached
    dsimp only at h
    split at h
    · exact remoteSendCb_down inv' h
    · cases h
      exact ⟨inv'.ok, inv'.waiting⟩
  · cases h

/-- What comes from the destination is encrypted into the empty buffer and sent from its start. -/
theorem remoteRecvCb_down {e : RecvEvent} (inv : DownInv conn) (filling : conn.down.filling = true)
    (h : remoteRecvCb C conn e = .ok conn') : DownInv conn' := by
  unfold remoteRecvCb at h
  split at h
  · cases h
  · cases h
  · cases h
    exact inv
  · obtain ⟨down, received, h⟩ := bind_eq_ok.mp h
    obtain ⟨buf, -, received⟩ := bind_eq_ok.mp received
    cases received
    obtain ⟨⟨cipher, eCtx⟩, -, h⟩ := bind_eq_ok.mp h
    obtain ⟨down', pushed, h⟩ := bind_eq_ok.mp h
    cases h
    have fresh := Pipe.Fresh.produce (inv.ok.delivered filling) cipher
    constructor
    · exact Pipe.push_ok fresh (inv.ok.not_draining filling) pushed
    · intro early
      have unread := (inv.waiting early).2
      rw [filling] at unread
      cases unread

/-- Every event keeps the invariant, by the lemma for its callback. -/
theorem fire_down {e : Event} (inv : DownInv conn) (on : enabled conn e = true) (h : fire C conn e = .ok conn') :
    DownInv conn' := by
  cases e with
  | serverRecv e o => exact serverRecvCb_down inv h
  | serverSend send =>
    have draining : conn.down.draining = true := on
    simp only [fire, serverSendCb] at h
    split at h
    · cases h
    · obtain ⟨down, drained, h⟩ := bind_eq_ok.mp h
      cases h
      refine ⟨Pipe.drain_ok inv.ok draining drained, ?_⟩
      intro early
      have idle := (inv.waiting early).1
      rw [draining] at idle
      cases idle
  | remoteRecv e => exact remoteRecvCb_down inv on h
  | remoteSend peer send => exact remoteSendCb_down inv h
  | resolved found o => exact serverResolveCb_down inv (of_decide_eq_true on) h
  | timeout => cases h

/-- A connection begins with nothing in either direction. -/
theorem acceptCb_down (C : Config P) (iv : Bytes) : DownInv (acceptCb C iv) where
  ok := Pipe.Ok.idle rfl rfl
  waiting _ := ⟨rfl, rfl⟩

/-- Along every run the downstream pipe is in order. -/
theorem down_ok (C : Config P) (iv : Bytes) (conn : Conn P)
    (reach : (machine C).Reach (fun _ _ => True) (acceptCb C iv) conn) : conn.down.Ok := by
  have inv := reach.invariant DownInv (acceptCb_down C iv) fun _ _ _ inv on _ fired => fire_down inv on fired
  exact inv.ok

end Shadowsocks.Server
