import Shadowsocks.Encrypt.Openssl
import Shadowsocks.Redir.Conn
import Shadowsocks.Relay.Faults
import Shadowsocks.Relay.Session

/-!
# The upstream direction of ss-redir

When the connection is reported, `remote_send_cb` stops both watchers and goes on to the
`send` that it also makes later, whose exits for a short and a refused `send` leave the
watchers as they are. And `accept_cb`, which calls it if `connect` succeeds at once, goes
on with what it may have freed. Where that first `send` is not cut, and the connection
that is there at once is not lost again, nothing is lost and nothing stalls.
-/

namespace Shadowsocks.Redir
set_option autoImplicit false
open Lib

variable {P : Platform} {C : Config P} {iv : Bytes} {destaddr : Destaddr} {conn conn' : Conn P}

/-- The plain text of the header. -/
def headerPlain (C : Config P) (iv : Bytes) (destaddr : Destaddr) : Except Stop Bytes := do
  let abuf ← orCrash (buildHeader P destaddr)
  let abuf ← authHeader C.E C.auth (newContext C.E true iv) abuf
  pure abuf.bytes

/-- The `send` behind the report of the connection takes everything, or fails. -/
def opensWhole (conn : Conn P) : Event → Prop
  | .remoteSend _ _ send => conn.connected = false → send = .full ∨ send = .failed
  | _ => True

/-- Inside `accept_cb` it must not fail either, nor `getpeername`. -/
def acceptsWhole : ConnectResult → Prop
  | .immediate peer send => peer = true ∧ send = .full
  | _ => True

/-! ## The header and what has arrived -/

theorem prepend_cases {buf abuf out : Buffer} (fits : buf.Fits) (h : prepend P buf abuf = .ok out) :
    out.bytes = abuf.bytes ++ buf.bytes ∧ out.idx = buf.idx ∧ out.Fits := by
  obtain ⟨roomy, enlarged, h⟩ := bind_eq_ok.mp h
  obtain ⟨moved, shifted, h⟩ := bind_eq_ok.mp h
  obtain ⟨header, read, h⟩ := bind_eq_ok.mp h
  obtain ⟨written, wrote, h⟩ := bind_eq_ok.mp h
  obtain ⟨more, rfl⟩ := brealloc_cases enlarged
  obtain ⟨-, target, rfl⟩ := Buffer.memmove_eq_ok.mp shifted
  obtain ⟨inside, rfl⟩ := Buffer.read_eq_ok.mp read
  obtain ⟨-, rfl⟩ := Buffer.write_eq_ok.mp wrote
  cases h
  dsimp only [Buffer.bytes, Buffer.Fits] at target ⊢
  have within : buf.len ≤ buf.array.length := fits
  have kept : window (buf.array ++ more) 0 buf.len = window buf.array 0 buf.len :=
    window_append_left (by rw [Nat.zero_add]; exact within)
  have long : (window (buf.array ++ more) 0 buf.len).length = buf.len := by
    rw [kept]
    exact length_window (by rw [Nat.zero_add]; exact within)
  have len : (window abuf.array 0 abuf.len).length = abuf.len := length_window inside
  have front := window_pad_front (buf.array ++ more) (window abuf.array 0 abuf.len) 0 buf.len (by rw [len]; omega)
  rw [len, Nat.zero_add] at front
  refine ⟨front.trans (by rw [kept]), rfl, ?_⟩
  rw [length_splice, length_splice]
  · omega
  · omega
  · rw [length_splice]
    · omega
    · omega

theorem prepend_len {buf abuf out : Buffer} (h : prepend P buf abuf = .ok out) : out.len = buf.len + abuf.len := by
  obtain ⟨roomy, enlarged, h⟩ := bind_eq_ok.mp h
  obtain ⟨moved, shifted, h⟩ := bind_eq_ok.mp h
  obtain ⟨header, read, h⟩ := bind_eq_ok.mp h
  obtain ⟨written, wrote, h⟩ := bind_eq_ok.mp h
  cases h
  obtain ⟨-, rfl⟩ := Buffer.write_eq_ok.mp wrote
  obtain ⟨-, -, rfl⟩ := Buffer.memmove_eq_ok.mp shifted
  obtain ⟨more, rfl⟩ := brealloc_cases enlarged
  rfl

/-! ## The invariant -/

/-- Before the remote is connected, one buffer of the client may wait. -/
structure Waiting (C : Config P) (iv : Bytes) (conn : Conn P) : Prop where
  produced : conn.up.produced = []
  accepted : conn.up.accepted = []
  plain : conn.plain = []
  framed : conn.framed = conn.up.buf.bytes
  unread : conn.up.filling = true → conn.framed = []
  fits : conn.up.buf.Fits
  start : conn.up.buf.idx = 0
  ctx : conn.eCtx = newContext C.E true iv

/-- Afterwards the pipe is in order and goes on. -/
structure Streaming (C : Config P) (iv : Bytes) (conn : Conn P) : Prop where
  ok : conn.up.Ok
  awake : conn.up.draining = true ∨ conn.up.filling = true
  header : ∃ header, headerPlain C iv conn.destaddr = .ok header ∧ conn.plain = header ++ conn.framed
  encrypted : Encrypted C.E (newContext C.E true iv) conn.plain conn.up.produced conn.eCtx

def UpInv (C : Config P) (iv : Bytes) (conn : Conn P) : Prop :=
  if conn.connected then Streaming C iv conn else Waiting C iv conn

theorem UpInv.waiting (inv : UpInv C iv conn) (off : conn.connected = false) : Waiting C iv conn := by
  rwa [UpInv, off, if_neg Bool.false_ne_true] at inv

theorem UpInv.streaming (inv : UpInv C iv conn) (on : conn.connected = true) : Streaming C iv conn := by
  rwa [UpInv, on, if_pos rfl] at inv

theorem Waiting.inv (waiting : Waiting C iv conn) (off : conn.connected = false) : UpInv C iv conn := by
  rwa [UpInv, off, if_neg Bool.false_ne_true]

theorem Streaming.inv (streaming : Streaming C iv conn) (on : conn.connected = true) : UpInv C iv conn := by
  rwa [UpInv, on, if_pos rfl]

/-- The connection is reported: the header and what has arrived make the first buffer. -/
theorem Waiting.open {tmp : Buffer} (waiting : Waiting C iv conn) (h : openStream C conn tmp = .ok conn') :
    conn'.connected = true ∧ conn'.destaddr = conn.destaddr ∧ conn'.framed = conn.framed ∧
      conn'.up.accepted = [] ∧ conn'.up.buf.idx = 0 ∧ conn'.up.produced = conn'.up.buf.bytes ∧
      (∃ header, headerPlain C iv conn.destaddr = .ok header ∧ conn'.plain = header ++ conn'.framed) ∧
      Encrypted C.E (newContext C.E true iv) conn'.plain conn'.up.produced conn'.eCtx := by
  obtain ⟨abuf, built, h⟩ := bind_eq_ok.mp h
  obtain ⟨auth, signed, h⟩ := bind_eq_ok.mp h
  obtain ⟨buf, prepended, h⟩ := bind_eq_ok.mp h
  obtain ⟨⟨cipher, eCtx⟩, encrypted, h⟩ := bind_eq_ok.mp h
  rw [orCrash_eq_ok] at prepended
  dsimp only at built signed prepended encrypted
  obtain ⟨bytes, idx, fits⟩ := prepend_cases waiting.fits prepended
  rw [waiting.ctx] at signed encrypted
  have nothing : Encrypted C.E (newContext C.E true iv) [] [] (newContext C.E true iv) := .nil
  have once := nothing.call fits encrypted
  cases h
  refine ⟨rfl, rfl, rfl, waiting.accepted, ?_, ?_, ⟨auth.bytes, ?_, ?_⟩, ?_⟩
  · exact (encryptBuf_idx encrypted).trans (idx.trans waiting.start)
  · rw [Pipe.produce]
    dsimp only
    rw [waiting.produced, List.nil_append]
  · simp only [headerPlain, built, ok_bind, signed, pure_eq_ok]
  · dsimp only
    rw [waiting.plain, waiting.framed, bytes, List.nil_append]
  · dsimp only [Pipe.produce]
    rw [waiting.plain, waiting.produced]
    exact once

/-- A first `send` that is not cut leaves nothing. -/
theorem Waiting.remoteSendCb {peer : Bool} {tmp : Buffer} {send : SendResult} (waiting : Waiting C iv conn)
    (off : conn.connected = false) (whole : send = .full ∨ send = .failed)
    (h : remoteSendCb C conn peer tmp send = .ok conn') :
    conn'.connected = true ∧ conn'.up.filling = true ∧ Streaming C iv conn' := by
  unfold Redir.remoteSendCb at h
  rw [off, if_neg Bool.false_ne_true] at h
  split at h
  · obtain ⟨mid, opened, h⟩ := bind_eq_ok.mp h
    obtain ⟨up, drained, h⟩ := bind_eq_ok.mp h
    obtain ⟨on, same, framed, nothing, start, produced, header, encrypted⟩ := waiting.open opened
    have uncut : (ConnectResult.immediate true send).whole = true := by
      rcases whole with rfl | rfl
      · rfl
      · rfl
    obtain rfl := Pipe.drain_whole uncut drained
    cases h
    refine ⟨on, rfl, ?_, .inr rfl, ?_, encrypted⟩
    · apply Pipe.Ok.idle
      · dsimp only [Pipe.resume]
        rw [produced, nothing, Buffer.pending, start, List.nil_append]
        rfl
      · rfl
    · rw [same]
      exact header
  · cases h

/-- What is still pending stays pending, or the client is read again. -/
theorem Streaming.drain {up : Pipe} {send : SendResult} (streaming : Streaming C iv conn) (on : conn.up.draining = true)
    (drained : conn.up.drain send = .ok up) : Streaming C iv { conn with up } where
  ok := Pipe.drain_ok streaming.ok on drained
  awake := by
    obtain ⟨-, ⟨-, rfl⟩ | ⟨s, -, -, rfl⟩ | ⟨-, rfl⟩⟩ := Pipe.drain_cases drained
    · exact .inl on
    · exact .inl on
    · exact .inr rfl
  header := streaming.header
  encrypted := by
    have same := (Pipe.drain_grows drained).1
    have encrypted := streaming.encrypted
    rw [← same] at encrypted
    exact encrypted

theorem remoteSendCb_up {peer : Bool} {tmp : Buffer} {send : SendResult} (inv : UpInv C iv conn)
    (draining : conn.up.draining = true) (whole : conn.connected = false → send = .full ∨ send = .failed)
    (h : remoteSendCb C conn peer tmp send = .ok conn') : UpInv C iv conn' := by
  by_cases on : conn.connected = true
  · unfold remoteSendCb at h
    rw [if_pos on] at h
    obtain ⟨up, drained, h⟩ := bind_eq_ok.mp h
    have streaming := (inv.streaming on).drain draining drained
    cases h
    exact streaming.inv on
  · rw [Bool.not_eq_true] at on
    obtain ⟨on', -, streaming⟩ := (inv.waiting on).remoteSendCb on (whole on) h
    exact streaming.inv on'

theorem serverRecvCb_up {e : RecvEvent} (inv : UpInv C iv conn) (filling : conn.up.filling = true)
    (h : serverRecvCb C conn e = .ok conn') : UpInv C iv conn' := by
  unfold serverRecvCb at h
  split at h
  · cases h
  · cases h
  · cases h
    exact inv
  · obtain ⟨up, received, h⟩ := bind_eq_ok.mp h
    obtain ⟨⟨buf, counter⟩, hashed, h⟩ := bind_eq_ok.mp h
    obtain ⟨rbuf, rfl, idx, fits⟩ := Pipe.receive_cases received
    obtain ⟨idx', fits'⟩ := genHash_cases fits hashed
    dsimp only at h idx' fits'
    split at h
    · rename_i off
      have off : conn.connected = false := by simpa using off
      have waiting := inv.waiting off
      cases h
      refine Waiting.inv ⟨waiting.produced, waiting.accepted, waiting.plain, ?_, fun no => (by cases no), fits', ?_,
        waiting.ctx⟩ off
      · dsimp only [Pipe.await]
        rw [waiting.unread filling, List.nil_append]
      · exact (idx'.trans idx).trans waiting.start
    · rename_i on
      have on : conn.connected = true := by simpa using on
      have streaming := inv.streaming on
      obtain ⟨⟨cipher, eCtx⟩, encrypted, h⟩ := bind_eq_ok.mp h
      obtain ⟨up, pushed, h⟩ := bind_eq_ok.mp h
      have fresh := Pipe.Fresh.produce (streaming.ok.delivered filling) cipher
      have more := streaming.encrypted.call fits' encrypted
      have same := (Pipe.push_grows pushed).1
      have ok := Pipe.push_ok fresh (streaming.ok.not_draining filling) pushed
      have awake : up.draining = true ∨ up.filling = true := by
        obtain ⟨-, rfl⟩ | ⟨s, -, -, rfl⟩ | ⟨-, rfl⟩ := Pipe.push_cases pushed
        · exact .inl rfl
        · exact .inl rfl
        · exact .inr filling
      obtain ⟨header, eq, split⟩ := streaming.header
      cases h
      refine Streaming.inv ⟨ok, awake, ⟨header, eq, ?_⟩, ?_⟩ on
      · dsimp only
        rw [split, List.append_assoc]
      · dsimp only
        rw [same]
        exact more

theorem fire_up {e : Event} (inv : UpInv C iv conn) (on : enabled conn e = true) (may : opensWhole conn e)
    (h : fire C conn e = .ok conn') : UpInv C iv conn' := by
  -- the callbacks of the other direction
  have aside : ∀ (down : Pipe) (dCtx : Option (EncCtx P)), UpInv C iv { conn with down, dCtx } := by
    intro down dCtx
    by_cases on : conn.connected = true
    · obtain ⟨ok, awake, header, encrypted⟩ := inv.streaming on
      exact Streaming.inv ⟨ok, awake, header, encrypted⟩ on
    · rw [Bool.not_eq_true] at on
      obtain ⟨produced, accepted, plain, framed, unread, fits, start, ctx⟩ := inv.waiting on
      exact Waiting.inv ⟨produced, accepted, plain, framed, unread, fits, start, ctx⟩ on
  cases e with
  | serverRecv e => exact serverRecvCb_up inv on h
  | serverSend send =>
    obtain ⟨down, -, h⟩ := bind_eq_ok.mp h
    cases h
    exact aside down conn.dCtx
  | remoteRecv e =>
    simp only [fire, remoteRecvCb] at h
    split at h
    · cases h
    · cases h
    · cases h
      exact inv
    · obtain ⟨⟨down, dCtx⟩, -, h⟩ := bind_eq_ok.mp h
      cases h
      exact aside down dCtx
  | remoteSend peer tmp send => exact remoteSendCb_up inv on may h
  | remoteTimeout => cases h

theorem newConn_waiting (C : Config P) (iv : Bytes) (destaddr : Destaddr) : Waiting C iv (newConn C iv destaddr) where
  produced := rfl
  accepted := rfl
  plain := rfl
  framed := (window_nil (balloc P.junk bufSize).array 0).symm
  unread no := by cases no
  fits := Nat.zero_le _
  start := rfl
  ctx := rfl

theorem acceptCb_up {connect : ConnectResult} {tmp : Buffer} (whole : acceptsWhole connect)
    (h : acceptCb C iv destaddr connect tmp = .ok conn) : UpInv C iv conn := by
  have waiting := newConn_waiting C iv destaddr
  unfold acceptCb at h
  dsimp only at h
  split at h
  · cases h
  · obtain ⟨rfl, rfl⟩ := whole
    split at h
    · cases h
    · cases h
    · rename_i mid sent
      obtain ⟨on, reading, streaming⟩ := waiting.remoteSendCb rfl (.inl rfl) sent
      -- the read watcher is active already
      rw [← reading] at h
      cases h
      exact streaming.inv on
  · cases h
    obtain ⟨produced, accepted, plain, framed, unread, fits, start, ctx⟩ := waiting
    exact Waiting.inv ⟨produced, accepted, plain, framed, fun _ => rfl, fits, start, ctx⟩ rfl

/-! ## What is freed is not touched -/

theorem openStream_avoids {bad : Fault} [bad.Foreign] (conn : Conn P) (tmp : Buffer) :
    Avoids (.crashed bad) (openStream C conn tmp) := by
  have header : Avoids bad (buildHeader P conn.destaddr) :=
    .bind (.bind (Buffer.write_avoids _ _ _) fun _ => avoids_ok _) fun _ =>
      .bind (Buffer.write_avoids _ _ _) fun _ => avoids_ok _
  have prepended : ∀ buf abuf, Avoids bad (prepend P buf abuf) := fun buf abuf =>
    .bind (brealloc_avoids _ _ _ _) fun _ => .bind (Buffer.memmove_avoids _ _ _ _) fun _ =>
      .bind (Buffer.read_avoids _ _ _) fun _ => .bind (Buffer.write_avoids _ _ _) fun _ => avoids_ok _
  exact .bind (orCrash_avoids header) fun _ => .bind (authHeader_avoids C.E _ _ _) fun _ =>
    .bind (orCrash_avoids (prepended _ _)) fun _ => .bind (encryptBuf_avoids C.E _ _ _) fun _ => avoids_ok _

theorem remoteSendCb_avoids {bad : Fault} [bad.Foreign] (conn : Conn P) (peer : Bool) (tmp : Buffer) (send : SendResult) :
    Avoids (.crashed bad) (remoteSendCb C conn peer tmp send) := by
  refine .ite (.bind (drain_avoids _ _) fun _ => avoids_ok _) (.ite ?_ (avoids_closed _))
  exact .bind (openStream_avoids _ _) fun _ => .bind (drain_avoids _ _) fun _ => avoids_ok _

theorem fire_avoids (conn : Conn P) (e : Event) : Avoids (.crashed .useAfterFree) (fire C conn e) := by
  cases e with
  | serverRecv e =>
    simp only [fire, serverRecvCb]
    cases e.recv with
    | eof => exact avoids_closed _
    | failed => exact avoids_closed _
    | wouldBlock => exact avoids_ok _
    | data segment =>
      refine .bind (receive_avoids _ _ _) fun _ => .bind (genHash_avoids C.E _ _ _ _) fun _ => .ite (avoids_ok _) ?_
      exact .bind (encryptBuf_avoids C.E _ _ _) fun _ => .bind (push_avoids _ _) fun _ => avoids_ok _
  | serverSend send => exact .bind (drain_avoids _ _) fun _ => avoids_ok _
  | remoteRecv e =>
    simp only [fire, remoteRecvCb]
    cases e.recv with
    | eof => exact avoids_closed _
    | failed => exact avoids_closed _
    | wouldBlock => exact avoids_ok _
    | data segment => exact .bind (relayDecrypted_avoids C.E _ _ _ _) fun _ => avoids_ok _
  | remoteSend peer tmp send => exact remoteSendCb_avoids conn peer tmp send
  | remoteTimeout => exact avoids_closed _

/-- With a library that works, what is sent at first is not empty. -/
theorem openStream_some (lawful : P.evp.Lawful) {tmp : Buffer} (h : openStream C conn tmp = .ok conn') :
    conn'.up.buf.len ≠ 0 := by
  obtain ⟨abuf, built, h⟩ := bind_eq_ok.mp h
  obtain ⟨auth, signed, h⟩ := bind_eq_ok.mp h
  obtain ⟨buf, prepended, h⟩ := bind_eq_ok.mp h
  obtain ⟨⟨cipher, eCtx⟩, encrypted, h⟩ := bind_eq_ok.mp h
  rw [orCrash_eq_ok] at built prepended
  obtain ⟨front, appended, built⟩ := bind_eq_ok.mp built
  have some_ : 0 < abuf.len := by
    rw [Buffer.append_len built, Buffer.append_len appended]
    cases conn.destaddr.ip with
    | v4 a => simp only [List.length_cons]; omega
    | v6 a => simp only [List.length_cons]; omega
  have signedLen : abuf.len ≤ auth.len := authHeader_len signed
  have total : buf.len = conn.up.buf.len + auth.len := prepend_len prepended
  have out := encryptBuf_len lawful encrypted
  cases h
  dsimp only [Pipe.produce]
  omega

/-- A connection that is there at once, and is not lost, is still open when `accept_cb`
goes on. -/
theorem acceptCb_avoids (lawful : P.evp.Lawful) {connect : ConnectResult} (tmp : Buffer) (whole : acceptsWhole connect) :
    Avoids (.crashed .useAfterFree) (acceptCb C iv destaddr connect tmp) := by
  unfold acceptCb
  dsimp only
  split
  · exact avoids_closed _
  · rename_i peer send
    obtain ⟨rfl, rfl⟩ := whole
    have stays : ∀ why, Avoids (.closed why) (remoteSendCb C (newConn C iv destaddr) true tmp .full) := by
      intro why
      refine .bind_ok ?_ fun mid opened => ?_
      · refine .bind (orCrash_open _ _) fun _ => .bind (authHeader_open _) fun _ => .bind (orCrash_open _ _) fun _ => ?_
        exact .bind (encryptBuf_open lawful _ _ _ _) fun _ => avoids_ok _
      · have some_ := openStream_some lawful opened
        refine .bind ?_ fun _ => avoids_ok _
        rw [Pipe.drain, if_neg some_]
        exact .bind (orCrash_open _ _) fun _ => .ite (avoids_ok _) (avoids_ok _)
    have safe : Avoids (.crashed .useAfterFree) (remoteSendCb C (newConn C iv destaddr) true tmp .full) :=
      remoteSendCb_avoids _ _ _ _
    split
    · rename_i why closed
      exact absurd closed (stays why)
    · rename_i fault crashed
      intro no
      cases no
      exact safe crashed
    · exact avoids_ok _
  · exact avoids_ok _

/-! ## Runs -/

/-- With a library that works, and along every run in which the first `send` is not cut:
no callback touches what was freed, the remote has accepted a prefix of the encryption of
the header and the framed data, and once it is connected the rest is pending with the
write watcher active and the client not read. -/
theorem upstream_lossless (lawful : P.evp.Lawful) (C : Config P) (iv : Bytes) (destaddr : Destaddr)
    (connect : ConnectResult) (tmp : Buffer) (whole : acceptsWhole connect) :
    acceptCb C iv destaddr connect tmp ≠ .error (.crashed .useAfterFree) ∧
    ∀ start conn, acceptCb C iv destaddr connect tmp = .ok start → (machine C).Reach opensWhole start conn →
      (∀ e, fire C conn e ≠ .error (.crashed .useAfterFree)) ∧
      (conn.connected = false → conn.up.accepted = []) ∧
      (conn.connected = true → conn.up.Intact ∧ (conn.up.draining = true ∨ conn.up.filling = true) ∧
        (∃ header, headerPlain C iv conn.destaddr = .ok header ∧ conn.plain = header ++ conn.framed) ∧
        Encrypted C.E (newContext C.E true iv) conn.plain conn.up.produced conn.eCtx) := by
  refine ⟨acceptCb_avoids lawful tmp whole, ?_⟩
  intro start conn accepted reach
  have inv := reach.invariant (UpInv C iv) (acceptCb_up whole accepted) fun _ _ _ inv on may fired => fire_up inv on may fired
  refine ⟨fire_avoids conn, fun off => (inv.waiting off).accepted, ?_⟩
  intro on
  have streaming := inv.streaming on
  exact ⟨streaming.ok.intact, streaming.awake, streaming.header, streaming.encrypted⟩

/-- ss-redir with the method `table`. -/
def tableConfig : Config rc4Platform where
  E := unsortedTable
  auth := false

/-- 10.0.0.1:80. -/
def tenNet : Destaddr where
  ip := .v4 [10, 0, 0, 1]
  port := [0, 80]

/-- The connection as it waits for the remote. -/
def opening : Conn rc4Platform := { newConn tableConfig [] tenNet with
  up := { (newConn tableConfig [] tenNet).up with filling := true, draining := true }, sendTimer := true }

/-- Two bytes before the remote is connected and one that its socket refuses. -/
theorem upstream_lossless_early : ∃ conn, acceptCb tableConfig [] tenNet .inProgress {} = .ok opening ∧
    (machine tableConfig).run opening [.serverRecv { recv := .data { bytes := [65, 66] } }, .remoteSend true {} .full,
      .serverRecv { recv := .data { bytes := [67] }, send := .wouldBlock }] = some (.ok conn) ∧
    conn.up.accepted = [1, 10, 0, 0, 1, 0, 80, 65, 66] ∧ conn.up.produced = [1, 10, 0, 0, 1, 0, 80, 65, 66, 67] ∧
    conn.up.Intact := by
  have ran : (machine tableConfig).leadsTo opening [.serverRecv { recv := .data { bytes := [65, 66] } },
      .remoteSend true {} .full, .serverRecv { recv := .data { bytes := [67] }, send := .wouldBlock }]
      (fun conn => conn.connected = true ∧ conn.up.accepted = [1, 10, 0, 0, 1, 0, 80, 65, 66] ∧
        conn.up.produced = [1, 10, 0, 0, 1, 0, 80, 65, 66, 67]) = true := by decide +kernel
  obtain ⟨conn, ran, sent⟩ := Machine.exists_of_leadsTo ran
  obtain ⟨on, nine, ten⟩ := of_decide_eq_true sent
  obtain ⟨-, safe⟩ := upstream_lossless rc4_lawful tableConfig [] tenNet .inProgress {} trivial
  have reach : (machine tableConfig).Reach opensWhole opening conn := by
    refine .of_run .refl ?_ ran
    intro e he s
    rcases List.mem_cons.mp he with rfl | he
    · trivial
    · rcases List.mem_cons.mp he with rfl | he
      · exact fun _ => .inl rfl
      · rw [List.mem_singleton.mp he]
        trivial
  obtain ⟨-, -, order⟩ := safe opening conn rfl reach
  exact ⟨conn, rfl, ran, nine, ten, (order on).1⟩

/-- The socket refuses the first buffer: it is never offered again, and nothing is read.
And a connection that is there at once and lost in the same call is touched again. -/
theorem upstream_stalls :
    (∃ conn, acceptCb tableConfig [] tenNet .inProgress {} = .ok opening ∧
      (machine tableConfig).Reach (fun _ _ => True) opening conn ∧ conn.connected = true ∧
      conn.up.produced = [1, 10, 0, 0, 1, 0, 80] ∧ conn.up.accepted = [] ∧ conn.up.draining = false ∧
      conn.up.filling = false ∧ ¬ conn.up.Intact) ∧
    acceptCb tableConfig [] tenNet (.immediate true .failed) {} = .error (.crashed .useAfterFree) := by
  constructor
  · have ran : (machine tableConfig).leadsTo opening [.remoteSend true {} .wouldBlock]
        (fun conn => conn.connected = true ∧ conn.up.produced = [1, 10, 0, 0, 1, 0, 80] ∧ conn.up.accepted = [] ∧
          conn.up.draining = false ∧ conn.up.filling = false ∧ ¬ conn.up.Intact) = true := by decide +kernel
    obtain ⟨conn, ran, stuck⟩ := Machine.exists_of_leadsTo ran
    exact ⟨conn, rfl, .of_run .refl (fun _ _ _ => trivial) ran, of_decide_eq_true stuck⟩
  · apply Machine.eq_error_of_stopsWith
    decide +kernel

end Shadowsocks.Redir
