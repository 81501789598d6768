import Shadowsocks.Local.Relay
import Shadowsocks.Relay.Reception

/-!
# The downstream end of ss-local

Until data arrives from the server, all that the callbacks do to the downstream end of a
connection is to use its buffer for the handshake and to start its read watcher. From
then on a proxied connection receives as a `Reception` does.

`Ready` is what holds of that end when the first segment comes, and `shows_reception` carries
each step over: the run of the connection is the run of a reception, with the same result.
-/

namespace Shadowsocks.Local
set_option autoImplicit false
open Lib

variable {P : Platform} {C : Config P} {conn conn' : Conn P} {remote remote' : Remote}

/-- The downstream end is left alone, but for its buffer and its read watcher. -/
structure Frame (conn conn' : Conn P) : Prop where
  dCtx : conn'.dCtx = conn.dCtx
  down : ∃ buf filling, conn'.down = { conn.down with buf, filling } ∧ conn.down.buf.Grown buf

/-- What leaves the context and the pipe alone is within the frame. -/
theorem Frame.of_eq (dCtx : conn'.dCtx = conn.dCtx) (down : conn'.down = conn.down) : Frame conn conn' where
  dCtx := dCtx
  down := ⟨conn.down.buf, conn.down.filling, down, .of_eq rfl⟩

theorem Frame.trans {a b c : Conn P} (ab : Frame a b) (bc : Frame b c) : Frame a c := by
  obtain ⟨buf, filling, eq, grown⟩ := ab.down
  obtain ⟨buf', filling', eq', grown'⟩ := bc.down
  refine ⟨bc.dCtx.trans ab.dCtx, buf', filling', ?_, ?_⟩
  · rw [eq', eq]
  · rw [eq] at grown'
    exact grown.trans grown'

/-- A `recv` from the client writes to the buffer that is also used for what comes back, and the
buffer only grows. -/
theorem receive_frame {segment : Segment} {down : Pipe} (h : conn.down.receive 0 segment = .ok down) :
    Frame conn { conn with down } := by
  obtain ⟨buf, written, h⟩ := bind_eq_ok.mp h
  rw [orCrash_eq_ok] at written
  cases h
  have grown := Buffer.write_grown written
  exact ⟨rfl, _, _, rfl, grown⟩

/-- The reply to a greeting goes to the client at once. -/
theorem methodSelect_frame {e : ServerRecv} {more : Bool} (h : methodSelect conn e = .ok (more, conn')) :
    Frame conn conn' := by
  unfold methodSelect at h
  obtain ⟨nmethods, -, h⟩ := bind_eq_ok.mp h
  obtain ⟨ver, -, h⟩ := bind_eq_ok.mp h
  dsimp only at h
  split at h
  · obtain ⟨buf, moved, h⟩ := bind_eq_ok.mp h
    rw [orCrash_eq_ok] at moved
    cases h
    have grown := Buffer.memmove_grown moved
    exact ⟨rfl, _, _, rfl, grown⟩
  · cases h
    exact .of_eq rfl rfl

/-- The parser of the request moves what is behind it to the front. -/
theorem readRequest_grown {buf buf' abuf : Buffer} {direct : Bool} (h : readRequest C buf = .ok (abuf, buf', direct)) :
    buf.Grown buf' := by
  obtain ⟨⟨abuf', host⟩, -, h⟩ := bind_eq_ok.mp h
  obtain ⟨stripped, strip, h⟩ := bind_eq_ok.mp h
  obtain ⟨direct', -, h⟩ := bind_eq_ok.mp h
  rw [orCrash_eq_ok] at strip
  cases h
  unfold stripRequest at strip
  dsimp only at strip
  split at strip
  · have grown := Buffer.memmove_grown strip
    exact grown
  · cases strip
    exact .of_eq rfl

/-- The buffer of the remote is another one. -/
theorem fillRemote_grown {eCtx : Option (EncCtx P)} {abuf buf buf' rbuf : Buffer} {direct : Bool} {counter : Nat}
    (h : fillRemote C eCtx abuf buf direct = .ok (rbuf, buf', counter)) : buf.Grown buf' := by
  unfold fillRemote at h
  dsimp only at h
  split at h
  · split at h
    · obtain ⟨data, -, h⟩ := bind_eq_ok.mp h
      obtain ⟨rbuf', -, h⟩ := bind_eq_ok.mp h
      cases h
      exact .of_eq rfl
    · cases h
      exact .of_eq rfl
  · obtain ⟨abuf', -, h⟩ := bind_eq_ok.mp h
    obtain ⟨roomy, -, h⟩ := bind_eq_ok.mp h
    obtain ⟨header, -, h⟩ := bind_eq_ok.mp h
    obtain ⟨headed, -, h⟩ := bind_eq_ok.mp h
    split at h
    · obtain ⟨⟨chunk, counter'⟩, hashed, h⟩ := bind_eq_ok.mp h
      obtain ⟨data, -, h⟩ := bind_eq_ok.mp h
      obtain ⟨rbuf', -, h⟩ := bind_eq_ok.mp h
      cases h
      unfold genHash at hashed
      split at hashed
      · obtain ⟨ctx, -, hashed⟩ := bind_eq_ok.mp hashed
        rw [orCrash_eq_ok] at hashed
        exact ssGenHash_grown hashed
      · cases hashed
        exact .of_eq rfl
    · cases h
      exact .of_eq rfl

/-- Stage 1 as a whole. -/
theorem handleRequest_frame {e : ServerRecv} (h : handleRequest C conn e = .ok (remote, conn')) : Frame conn conn' := by
  unfold handleRequest at h
  obtain ⟨cmd, -, h⟩ := bind_eq_ok.mp h
  split at h
  · cases h
  · split at h
    · cases h
    · obtain ⟨⟨abuf, buf, direct⟩, read, h⟩ := bind_eq_ok.mp h
      obtain ⟨created, -, h⟩ := bind_eq_ok.mp h
      obtain ⟨⟨rbuf, sbuf, counter⟩, filled, h⟩ := bind_eq_ok.mp h
      obtain ⟨reply, wrote, h⟩ := bind_eq_ok.mp h
      rw [orCrash_eq_ok] at wrote
      have grown := ((readRequest_grown read).trans (fillRemote_grown filled)).trans (Buffer.write_grown wrote)
      split at h
      · split at h
        · cases h
        · cases h
          exact ⟨rfl, _, _, rfl, grown⟩
      · cases h

/-- Encryption upstream has a context of its own. -/
theorem encryptUp_frame {tmp : Buffer} (h : encryptUp C conn remote tmp = .ok (remote', conn')) : Frame conn conn' := by
  unfold encryptUp at h
  split at h
  · cases h
    exact .of_eq rfl rfl
  · obtain ⟨⟨buf, counter⟩, -, h⟩ := bind_eq_ok.mp h
    obtain ⟨⟨cipher, eCtx⟩, -, h⟩ := bind_eq_ok.mp h
    cases h
    exact .of_eq rfl rfl

theorem remoteSendCb_frame {peer : Bool} {send : SendResult} (h : remoteSendCb conn remote peer send = .ok conn') :
    Frame conn conn' := by
  unfold remoteSendCb at h
  split at h
  · obtain ⟨up, -, h⟩ := bind_eq_ok.mp h
    cases h
    exact .of_eq rfl rfl
  · split at h
    · dsimp only at h
      split at h
      · cases h
        exact ⟨rfl, _, _, rfl, .of_eq rfl⟩
      · obtain ⟨up, -, h⟩ := bind_eq_ok.mp h
        cases h
        exact ⟨rfl, _, _, rfl, .of_eq rfl⟩
    · cases h

/-- Opening the remote is no matter of what comes back. -/
theorem openRemote_frame {e : ServerRecv} (h : openRemote C conn remote e = .ok conn') : Frame conn conn' := by
  unfold openRemote at h
  split at h
  · cases h
  · dsimp only at h
    split at h
    · split at h
      · cases h
      · have frame := remoteSendCb_frame h
        exact ⟨frame.dCtx, frame.down⟩
      · cases h
        exact .of_eq rfl rfl
    · split at h
      · cases h
      · cases h
        exact .of_eq rfl rfl
      · obtain ⟨data, -, h⟩ := bind_eq_ok.mp h
        cases h
        exact ⟨rfl, _, _, rfl, .of_eq rfl⟩

/-- Nor is the rest of the way upstream. -/
theorem relayUp_frame {e : ServerRecv} (h : relayUp C conn remote e = .ok conn') : Frame conn conn' := by
  obtain ⟨⟨remote', mid⟩, encrypted, h⟩ := bind_eq_ok.mp h
  refine (encryptUp_frame encrypted).trans ?_
  dsimp only at h
  split at h
  · obtain ⟨up, -, h⟩ := bind_eq_ok.mp h
    cases h
    exact .of_eq rfl rfl
  · exact openRemote_frame h

/-- No upstream callback touches the downstream end. -/
theorem serverRecvCb_frame {e : ServerRecv} (h : serverRecvCb C conn e = .ok conn') : Frame conn conn' := by
  unfold serverRecvCb at h
  split at h
  · cases h
  · cases h
  · cases h
    exact .of_eq rfl rfl
  · split at h
    · obtain ⟨up, -, h⟩ := bind_eq_ok.mp h
      have frame := relayUp_frame h
      exact ⟨frame.dCtx, frame.down⟩
    · obtain ⟨down, received, h⟩ := bind_eq_ok.mp h
      obtain ⟨⟨r, mid⟩, handled, h⟩ := bind_eq_ok.mp h
      exact ((receive_frame received).trans (handleRequest_frame handled)).trans (relayUp_frame h)
    · obtain ⟨down, received, h⟩ := bind_eq_ok.mp h
      obtain ⟨⟨more, mid⟩, selected, h⟩ := bind_eq_ok.mp h
      have before := (receive_frame received).trans (methodSelect_frame selected)
      dsimp only at h
      split at h
      · obtain ⟨⟨r, last⟩, handled, h⟩ := bind_eq_ok.mp h
        exact (before.trans (handleRequest_frame handled)).trans (relayUp_frame h)
      · cases h
        exact before

/-! ## Before and after the first data -/

/-- What a client receives with. -/
def Conn.reception (conn : Conn P) : Reception P := { down := conn.down, dCtx := conn.dCtx }

/-- No data from the remote arrives with the event. -/
def beforeData (_ : Conn P) : Event → Prop
  | .remoteRecv e => ∀ segment, e.recv ≠ .data segment
  | _ => True

/-- So a client that is ready for its server stays so until the server says something. -/
theorem Ready.frame {C : Config P} (ready : conn.reception.Ready C.E) (frame : Frame conn conn') :
    conn'.reception.Ready C.E := by
  obtain ⟨buf, filling, down, grown⟩ := frame.down
  have room : conn'.reception.down = { conn.down with buf, filling } := down
  refine ⟨frame.dCtx.trans ready.ctx, ?_, ?_, ?_, ?_, ?_⟩
  · rw [room]
    exact ready.produced
  · rw [room]
    exact ready.accepted
  · rw [room]
    exact ready.idle
  · rw [room]
    exact Nat.le_trans ready.room grown.1
  · rw [room]
    exact grown.2 ready.alloc

/-- A connection to which the server has not sent anything can receive. -/
theorem reception_ready (C : Config P) (iv : Bytes) (method : C.E.method ≠ .table)
    (reach : (machine C).Reach beforeData (acceptCb C iv) conn) : conn.reception.Ready C.E := by
  refine reach.invariant (fun conn => conn.reception.Ready C.E) ?_ ?_
  · have fresh : newContext C.E false [] = some (encCtxInit C.E false []) := if_neg method
    have size : (balloc P.junk bufSize).array.length = bufSize := length_balloc _ _
    refine ⟨fresh, rfl, rfl, rfl, Nat.le_of_eq size.symm, ?_⟩
    change (balloc P.junk bufSize).array.length < 2 ^ 63
    rw [size]
    decide
  · intro conn e conn' ready on may fired
    cases e with
    | serverRecv e => exact Ready.frame ready (serverRecvCb_frame fired)
    | serverSend send =>
      have draining : conn.reception.down.draining = true := on
      rw [ready.idle] at draining
      cases draining
    | remoteRecv e =>
      obtain ⟨r, -, fired⟩ := bind_eq_ok.mp fired
      unfold remoteRecvCb at fired
      dsimp only at fired
      split at fired
      · cases fired
      · cases fired
      · cases fired
        exact Ready.frame ready (.of_eq rfl rfl)
      · rename_i segment data
        exact absurd data (may segment)
    | remoteSend peer send =>
      obtain ⟨r, -, fired⟩ := bind_eq_ok.mp fired
      exact Ready.frame ready (remoteSendCb_frame fired)
    | remoteTimeout => cases fired

/-- The events of a reception as callbacks. -/
def ofDown : DownEvent → Event
  | .recv segment tmp ivCache send => .remoteRecv { recv := .data segment, tmp, ivCache, send }
  | .send send => .serverSend send

/-- The connection goes through a proxy. -/
def Conn.proxied (conn : Conn P) : Prop := ∃ r, conn.phase.remote? = some r ∧ r.direct = false

/-- `remote_recv_cb` of a proxied connection. -/
theorem fire_remoteRecv {segment : Segment} {e : RecvEvent} {r : Remote} (data : e.recv = .data segment)
    (found : conn.phase.remote? = some r) (proxied : r.direct = false) :
    fire C conn (.remoteRecv e) = (relayDecrypted C.E conn.down conn.dCtx segment e).map fun x =>
      { conn with phase := .stream { r with recvTimer := true }, down := x.1, dCtx := x.2 } := by
  simp only [fire, found, deref_some, orCrash_ok, ok_bind, remoteRecvCb, data, proxied, Bool.false_eq_true, if_false]
  cases relayDecrypted C.E conn.down conn.dCtx segment e <;> rfl

/-- The part of ss-local that deals with what its server sends is the machine `Reception`. -/
theorem shows_reception (C : Config P) :
    (machine C).Shows (Reception.machine C.E) Conn.reception ofDown Conn.proxied := by
  constructor
  · intro conn e _
    cases e <;> rfl
  · rintro conn e ⟨r, found, proxied⟩
    cases e with
    | recv segment tmp ivCache send =>
      have fired := fire_remoteRecv (C := C) (e := { recv := .data segment, tmp, ivCache, send }) rfl found proxied
      change Reception.fire C.E conn.reception (.recv segment tmp ivCache send) =
        (fire C conn (.remoteRecv { recv := .data segment, tmp, ivCache, send })).map Conn.reception
      rw [fired]
      simp only [Reception.fire, Conn.reception]
      cases relayDecrypted C.E conn.down conn.dCtx segment { recv := .data segment, tmp, ivCache, send } <;> rfl
    | send send =>
      change (conn.down.drain send >>= fun down => pure { conn.reception with down }) =
        (conn.down.drain send >>= fun down => pure { conn with down }).map Conn.reception
      cases conn.down.drain send <;> rfl
  · rintro conn e conn' ⟨r, found, proxied⟩ fired
    cases e with
    | recv segment tmp ivCache send =>
      have eq := fire_remoteRecv (C := C) (e := { recv := .data segment, tmp, ivCache, send }) rfl found proxied
      have fired' : fire C conn (.remoteRecv { recv := .data segment, tmp, ivCache, send }) = .ok conn' := fired
      rw [eq] at fired'
      cases relayed : relayDecrypted C.E conn.down conn.dCtx segment { recv := .data segment, tmp, ivCache, send } with
      | ok x =>
        rw [relayed] at fired'
        cases fired'
        exact ⟨_, rfl, proxied⟩
      | error t =>
        rw [relayed] at fired'
        cases fired'
    | send send =>
      obtain ⟨down, -, rest⟩ := bind_eq_ok.mp fired
      cases rest
      exact ⟨r, found, proxied⟩

end Shadowsocks.Local
