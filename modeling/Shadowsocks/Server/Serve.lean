import Shadowsocks.Server.Header

/-!
# ss-server on one client stream

A client sends an IV and then an encrypted header and body, and the network cuts this
stream anywhere. Stage 0 collects segments until there is more than the IV, and then
reads the header once: if it is all there, the connection is served, and what is
forwarded does not depend on how the stream was cut (`serve_whole`), otherwise the
connection is closed (`serve_part`). All this is in one environment: there is no fast
open, the names the client asks for are found at once, a connect is in progress when it is
asked for and then succeeds, and a destination takes all that is sent. What a connect that
succeeds at once and a send that refuses do to a connection is in `Server.Upstream` and
`Server.Stage`.
-/

namespace Shadowsocks.Server
set_option autoImplicit false
open Lib

section
variable {P : Platform}

/-- What a client may send: `flag` is `ONETIMEAUTH_FLAG`. If the server asks for it or the
flag is there, the header is followed by its tag and the body is made of chunks. -/
structure ClientStream (S : Config P) where
  iv : Bytes
  header : Header
  flag : Bool
  body : Bytes
  ivLen : iv.length = S.E.ivLen
  valid : header.Valid
  bodyOk : BodyOk P iv (S.auth || flag) body
  limit : InLimit S.E ((head S.E iv header flag (S.auth || flag)).length + body.length)

namespace ClientStream
variable {S : Config P}

def auth (s : ClientStream S) : Bool := S.auth || s.flag

def head (s : ClientStream S) : Bytes := Shadowsocks.head S.E s.iv s.header s.flag s.auth

def plain (s : ClientStream S) : Bytes := s.head ++ s.body

/-- The stream on the wire. -/
def wire (s : ClientStream S) : Bytes := ciphertext S.E s.iv s.plain

/-- What is to be forwarded. -/
def payload (s : ClientStream S) : Bytes := payloadOf P s.iv s.auth s.body

theorem length_plain (s : ClientStream S) : s.plain.length = s.head.length + s.body.length := List.length_append

theorem window_plain (s : ClientStream S) (k n : Nat) :
    window s.plain (s.head.length + k) n = window s.body k n := by
  rw [window, window, plain, List.drop_append, List.drop_eq_nil_of_le (Nat.le_add_right _ _), List.nil_append,
    Nat.add_sub_cancel_left]

end ClientStream

/-- The events that come with a segment. The resolver answers and the destination takes
all it is sent, as soon as either is waited for; the connect (the default of the results) is
in progress, without fast open. -/
def offered (a : Arrival) : List Event :=
  [.serverRecv { recv := .data a.segment, tmp := a.tmp, ivCache := a.ivCache } {}, .resolved true {},
    .remoteSend true .full]

/-- The connection after these segments. -/
def serve (S : Config P) (conn : Conn P) (arrivals : List Arrival) : Except Stop (Conn P) :=
  (machine S).offers conn (arrivals.flatMap offered)

/-- The segments can be results of `recv` in stage 0, of which `n` bytes are there: its
buffer takes `BUF_SIZE` bytes in all, and the IV is not known. -/
def Possible (iv : Bytes) : Nat → List Arrival → Prop
  | _, [] => True
  | n, a :: as => n ≤ iv.length →
    n + a.segment.bytes.length ≤ bufSize ∧ iv ∉ a.ivCache.keys ∧ Possible iv (n + a.segment.bytes.length) as

/-- How much of the stream is there when the header is read. -/
def firstLook (ivLen : Nat) : Nat → List Arrival → Nat
  | n, [] => n
  | n, a :: as => if n ≤ ivLen then firstLook ivLen (n + a.segment.bytes.length) as else n

/-! ## The states of the connection -/

section
variable {S : Config P}

/-- Stage 0, with no more than the IV. -/
structure Collecting (S : Config P) (seen : Bytes) (conn : Conn P) : Prop where
  phase : conn.phase = .init
  filling : conn.up.filling = true
  idle : conn.up.draining = false
  accepted : conn.up.accepted = []
  buf : conn.down.buf.Holds seen
  idx : conn.down.buf.idx = 0
  room : bufSize ≤ conn.down.buf.array.length
  ctx : conn.dCtx = some (encCtxInit S.E false [])
  chunk : conn.chunk = {}

/-- The header has been read, and the first `k` bytes of the body have been checked. -/
structure Known (s : ClientStream S) (k : Nat) (conn : Conn P) : Prop where
  header : conn.header = some s.header
  auth : conn.auth = s.auth
  checking : Checking P s.iv s.auth (s.body.take k) conn.chunk
  ctx : DecAt S.E s.iv s.plain (s.head.length + k) conn.dCtx

/-- Stage 4, with the first payload in the buffer of the remote. -/
structure Connecting (s : ClientStream S) (k : Nat) (conn : Conn P) : Prop where
  known : Known s k conn
  phase : conn.phase = .connecting false
  draining : conn.up.draining = true
  accepted : conn.up.accepted = []
  buf : conn.up.buf.Holds (payloadOf P s.iv s.auth (s.body.take k))
  idx : conn.up.buf.idx = 0
  room : bufSize ≤ conn.up.buf.array.length

/-- Stage 4, with the first payload in the buffer of the server. -/
structure Resolving (s : ClientStream S) (k : Nat) (conn : Conn P) : Prop where
  known : Known s k conn
  phase : conn.phase = .resolving
  accepted : conn.up.accepted = []
  buf : conn.down.buf.Holds (payloadOf P s.iv s.auth (s.body.take k))
  idx : conn.down.buf.idx = 0

/-- Stage 5. -/
structure Streaming (s : ClientStream S) (k : Nat) (conn : Conn P) : Prop where
  known : Known s k conn
  phase : conn.phase = .stream
  filling : conn.up.filling = true
  idle : conn.up.draining = false
  accepted : conn.up.accepted = payloadOf P s.iv s.auth (s.body.take k)
  room : bufSize ≤ conn.up.buf.array.length

theorem acceptCb_collecting (S : Config P) (iv : Bytes) (method : S.E.method ≠ .table) :
    Collecting S [] (acceptCb S iv) where
  phase := rfl
  filling := rfl
  idle := rfl
  accepted := rfl
  buf := Buffer.holds_nil rfl
  idx := rfl
  room := Nat.le_of_eq (length_balloc _ _).symm
  ctx := if_neg method
  chunk := rfl

/-! ## One segment -/

variable {s : ClientStream S} {conn : Conn P} {seen : Bytes}

/-- No more than the IV is there: nothing happens. -/
theorem Collecting.wait (inv : Collecting S seen conn) (a : Arrival) (as : List Arrival)
    (short : seen.length + a.segment.bytes.length ≤ S.E.ivLen) :
    ∃ conn', serve S conn (a :: as) = serve S conn' as ∧ Collecting S (seen ++ a.segment.bytes) conn' := by
  have ivShort := S.E.ivLen_le
  have cap : bufSize = 2048 := rfl
  obtain ⟨buf, received, holds, idx, size⟩ := Pipe.receive_append a.segment inv.buf (by omega) inv.room
  have len := holds.len
  rw [List.length_append] at len
  have fired : (machine S).fire conn
      (.serverRecv { recv := .data a.segment, tmp := a.tmp, ivCache := a.ivCache } {}) =
        .ok { conn with down := { conn.down with buf } } := by
    simp only [machine, fire, serverRecvCb, inv.phase, if_true, received, ok_bind, reduceCtorEq, if_false]
    rw [if_pos (by omega), pure_eq_ok]
  refine ⟨{ conn with down := { conn.down with buf } }, ?_, inv.phase, inv.filling, inv.idle, inv.accepted, holds, ?_, ?_,
    inv.ctx, inv.chunk⟩
  · have off : (machine S).enabled { conn with down := { conn.down with buf } } (.resolved true {}) = false := by
      simp only [machine, enabled, inv.phase, reduceCtorEq, decide_false]
    have off' : (machine S).enabled { conn with down := { conn.down with buf } } (.remoteSend true .full) = false :=
      inv.idle
    rw [serve, List.flatMap_cons, offered]
    exact ((Machine.offers_fire _ inv.filling fired).trans (Machine.offers_skip _ off)).trans (Machine.offers_skip _ off')
  · exact idx.trans inv.idx
  · rw [size]
    exact inv.room

/-- The first payload is handed over to a new remote. -/
theorem attachRemote_spec (conn : Conn P) {piece : Bytes} {buf : Buffer} (holds : buf.Holds piece) (small : piece.length ≤ bufSize) :
    ∃ conn', attachRemote conn buf [] 0 = .ok conn' ∧ conn'.phase = .connecting false ∧ conn'.dCtx = conn.dCtx ∧
      conn'.chunk = conn.chunk ∧ conn'.auth = conn.auth ∧ conn'.header = conn.header ∧
      conn'.up.accepted = conn.up.accepted ∧ conn'.up.buf.Holds piece ∧ conn'.up.buf.idx = 0 ∧
      bufSize ≤ conn'.up.buf.array.length := by
  have len := holds.len
  have room : (balloc P.junk bufSize).array.length = bufSize := length_balloc _ _
  unfold attachRemote
  dsimp only
  split
  · have size : (splice (balloc P.junk bufSize).array 0 piece).length = bufSize := by
      rw [length_splice (by omega), room]
    rw [holds.readAll, orCrash_ok, ok_bind, Buffer.write_ok (by omega), orCrash_ok, ok_bind]
    refine ⟨_, rfl, rfl, rfl, rfl, rfl, rfl, List.append_nil _, ⟨?_, ?_⟩, rfl, Nat.le_of_eq size.symm⟩
    · dsimp only [Buffer.Fits]
      omega
    · dsimp only [Buffer.bytes]
      rw [len]
      exact window_splice_self _ _ _ (Nat.zero_le _)
  · have empty : piece = [] := List.eq_nil_of_length_eq_zero (by omega)
    subst empty
    exact ⟨_, rfl, rfl, rfl, rfl, rfl, rfl, List.append_nil _, Buffer.holds_nil rfl, rfl, Nat.le_of_eq room.symm⟩

/-- The destination accepts the connection and takes the first payload. -/
theorem Connecting.established {k : Nat} (inv : Connecting s k conn) :
    ∃ conn', remoteSendCb conn true .full = .ok conn' ∧ Streaming s k conn' := by
  have known := inv.known
  have len := inv.buf.len
  simp only [remoteSendCb, inv.phase, if_true]
  split
  · rename_i none_
    have empty : payloadOf P s.iv s.auth (s.body.take k) = [] := List.eq_nil_of_length_eq_zero (by omega)
    refine ⟨_, rfl, ⟨known.header, known.auth, known.checking, known.ctx⟩, rfl, rfl, rfl, ?_, inv.room⟩
    rw [empty]
    exact inv.accepted
  · rename_i some_
    have drained := Pipe.drain_full inv.buf inv.idx some_
    simp only [sendPending, drained, ok_bind, Pipe.resume, ne_eq, reduceCtorEq, not_false_eq_true, and_self, if_true,
      pure_eq_ok]
    refine ⟨_, rfl, ⟨known.header, known.auth, known.checking, known.ctx⟩, rfl, rfl, rfl, ?_, inv.room⟩
    rw [toStream]
    dsimp only
    rw [inv.accepted, List.nil_append]

/-- The resolver answers. -/
theorem Resolving.resolved {k : Nat} (inv : Resolving s k conn) (small : k ≤ bufSize) :
    ∃ conn', serverResolveCb conn true {} = .ok conn' ∧ Connecting s k conn' := by
  have known := inv.known
  have short : (payloadOf P s.iv s.auth (s.body.take k)).length ≤ bufSize := by
    have le := length_payloadOf (P := P) s.iv s.auth (s.body.take k)
    rw [List.length_take] at le
    omega
  obtain ⟨conn', attached, phase, ctx, chunk, auth, header, accepted, holds, idx, room⟩ :=
    attachRemote_spec conn inv.buf short
  refine ⟨{ conn' with up := { conn'.up with draining := true } }, ?_, ⟨?_, ?_, ?_, ?_⟩, phase, rfl, ?_, holds, idx, room⟩
  · simp only [serverResolveCb, connectToRemote, if_true, Bool.not_true, Bool.false_eq_true, if_false, pure_eq_ok, ok_bind,
      Bool.false_and, inv.idx, attached]
  · exact header.trans known.header
  · exact auth.trans known.auth
  · have checking := known.checking
    rw [← chunk] at checking
    exact checking
  · have at_ := known.ctx
    rw [← ctx] at at_
    exact at_
  · exact accepted.trans inv.accepted

/-- The end of stage 0 with the whole header and `k` bytes of the body. -/
theorem handleHeader_spec (conn : Conn P) {k : Nat} (small : k ≤ bufSize) (ctx : DecAt S.E s.iv s.plain (s.head.length + k) conn.dCtx)
    (accepted : conn.up.accepted = []) (chunk : conn.chunk = {}) (idx : conn.down.buf.idx = 0)
    (holds : conn.down.buf.Holds (s.head ++ s.body.take k)) :
    ∃ conn', handleHeader S conn {} = .ok conn' ∧ (Resolving s k conn' ∨ Connecting s k conn') := by
  obtain ⟨c, hctx, init, hiv, pos⟩ := ctx
  obtain ⟨buf, read, rest, bufIdx, size⟩ := readHeader_spec (S := S) s.ivLen s.valid hctx hiv holds
  have ok : BodyOk P s.iv s.auth ([] ++ s.body.take k) := by
    have whole := s.bodyOk
    rw [← List.take_append_drop k s.body] at whole
    exact whole.of_append
  have within : (s.body.take k).length ≤ k := List.length_take_le _ _
  obtain ⟨out, chunk', piece, checked, outHolds, payload, checking, outIdx, -⟩ := checkHash_spec
    s.ivLen hctx hiv (Checking.zeroed P s.iv s.auth) rest (by rw [bufSize] at small; omega) ok
  rw [payloadOf_nil, List.nil_append, List.nil_append] at payload
  subst payload
  have short : (payloadOf P s.iv s.auth (s.body.take k)).length ≤ bufSize := by
    have le := length_payloadOf (P := P) s.iv s.auth (s.body.take k)
    omega
  have start : out.idx = 0 := outIdx.trans (bufIdx.trans idx)
  have call : checkHash S.E (S.auth || s.flag) conn.dCtx buf conn.chunk = .ok (out, chunk') := by
    rw [chunk]
    exact checked
  simp only [handleHeader, read, ok_bind, call]
  cases destination S.text s.header with
  | query host port =>
    refine ⟨_, rfl, .inl ⟨⟨rfl, rfl, checking, c, hctx, init, hiv, pos⟩, rfl, accepted, outHolds, start⟩⟩
  | sockaddr ip port =>
    obtain ⟨conn', attached, phase, ctx', chunk₁, auth₁, header₁, accepted₁, holds₁, idx₁, room₁⟩ :=
      attachRemote_spec { conn with
        up := { conn.up with produced := conn.up.produced ++ out.bytes }
        down := { conn.down with buf := out }
        auth := S.auth || s.flag
        chunk := chunk'
        header := some s.header } outHolds short
    refine ⟨{ conn' with up := conn'.up.await }, ?_, .inr ⟨⟨?_, ?_, ?_, ?_⟩, phase, rfl, ?_, holds₁, idx₁, room₁⟩⟩
    · simp only [connectToRemote, Bool.not_true, Bool.false_eq_true, if_false, pure_eq_ok, ok_bind,
        Bool.false_and, attached]
    · exact header₁
    · exact auth₁
    · have same : conn'.chunk = chunk' := chunk₁
      dsimp only
      rw [same]
      exact checking
    · refine ⟨c, ?_, init, hiv, pos⟩
      exact ctx'.trans hctx
    · exact accepted₁.trans accepted

/-- More than the IV is there for the first time: the header is read. The plaintext so far is a
beginning of the header, or the header with a part of the payload behind it. A name is resolved
before the remote is connected to; an address is connected to at once. -/
theorem Collecting.look (lawful : P.evp.Lawful) (inv : Collecting S seen conn) (a : Arrival) (as : List Arrival) {n : Nat}
    (bytes : seen ++ a.segment.bytes = s.iv ++ window (cipherBody S.E s.iv s.plain) 0 n) (some_ : 0 < n)
    (total : seen.length + a.segment.bytes.length = S.E.ivLen + n)
    (fits : seen.length + a.segment.bytes.length ≤ bufSize) (fresh : s.iv ∉ a.ivCache.keys) :
    (n < s.head.length → ∃ why, serve S conn (a :: as) = .error (.closed why)) ∧
    (s.head.length ≤ n →
      ∃ conn', serve S conn (a :: as) = serve S conn' as ∧ Streaming s (n - s.head.length) conn') := by
  have cap : bufSize = 2048 := rfl
  obtain ⟨buf, received, holds, idx, size⟩ := Pipe.receive_append a.segment inv.buf fits inv.room
  have len := holds.len
  rw [List.length_append] at len
  rw [bytes] at holds
  have limit : InLimit S.E s.plain.length := by
    rw [ClientStream.length_plain]
    exact s.limit
  obtain ⟨out, ctx, decrypted, outHolds, at_, outIdx, -, room⟩ :=
    decryptBuf_first lawful s.ivLen a.tmp holds (fun _ => fresh) (by omega) limit
  have start : out.idx = 0 := outIdx.trans (idx.trans inv.idx)
  have fired : (machine S).fire conn
      (.serverRecv { recv := .data a.segment, tmp := a.tmp, ivCache := a.ivCache } {}) =
        handleHeader S { conn with down := { conn.down with buf := out }, dCtx := ctx } {} := by
    simp only [machine, fire, serverRecvCb, inv.phase, if_true, received, ok_bind, reduceCtorEq, if_false]
    rw [if_neg (by omega), inv.ctx, decrypted, ok_bind]
  refine ⟨fun short => ?_, fun whole => ?_⟩
  · -- only a part of the header is there
    have inside : window s.plain 0 n = s.head.take n := by
      rw [ClientStream.plain, window_append_left (by omega), ← take_eq_window]
    rw [inside] at outHolds
    have partLen : (s.head.take n).length = n := by rw [List.length_take]; omega
    have cut : s.head.take n <+: head S.E s.iv s.header s.flag (S.auth || s.flag) := List.take_prefix _ _
    obtain ⟨why, failed⟩ := readHeader_short ctx s.valid outHolds (by omega) cut (by omega)
      (by rw [partLen]; exact short)
    refine ⟨why, ?_⟩
    rw [serve, List.flatMap_cons, offered]
    refine Machine.offers_stop _ inv.filling ?_
    rw [fired]
    simp only [handleHeader, failed, error_bind]
  · have split : window s.plain 0 n = s.head ++ s.body.take (n - s.head.length) := by
      rw [← take_eq_window, ClientStream.plain, List.take_append, List.take_of_length_le whole]
    have sum : s.head.length + (n - s.head.length) = n := by omega
    rw [split] at outHolds
    rw [← sum] at at_
    obtain ⟨conn', handled, waiting⟩ := handleHeader_spec
      { conn with down := { conn.down with buf := out }, dCtx := ctx }
      (by omega) at_ inv.accepted inv.chunk start outHolds
    rw [serve, List.flatMap_cons, offered]
    have open_ : (machine S).enabled conn
        (.serverRecv { recv := .data a.segment, tmp := a.tmp, ivCache := a.ivCache } {}) = true := inv.filling
    have first := Machine.offers_fire (.resolved true {} :: .remoteSend true .full :: as.flatMap offered) open_
      (fired.trans handled)
    rcases waiting with resolving | connecting
    · obtain ⟨mid, resolved, connecting⟩ := resolving.resolved (by omega)
      obtain ⟨last, established, streaming⟩ := connecting.established
      have on : (machine S).enabled conn' (.resolved true {}) = true := decide_eq_true resolving.phase
      refine ⟨last, ?_, streaming⟩
      exact (first.trans (Machine.offers_fire _ on resolved)).trans
        (Machine.offers_fire _ connecting.draining established)
    · obtain ⟨last, established, streaming⟩ := connecting.established
      have off : (machine S).enabled conn' (.resolved true {}) = false := by
        simp only [machine, enabled, connecting.phase, reduceCtorEq, decide_false]
      refine ⟨last, ?_, streaming⟩
      exact (first.trans (Machine.offers_skip _ off)).trans (Machine.offers_fire _ connecting.draining established)

/-- A segment in stage 5. -/
theorem Streaming.next (lawful : P.evp.Lawful) {k : Nat} (inv : Streaming s k conn) (a : Arrival) (as : List Arrival)
    (bytes : a.segment.bytes = window (cipherBody S.E s.iv s.plain) (s.head.length + k) a.segment.bytes.length) :
    ∃ conn', serve S conn (a :: as) = serve S conn' as ∧ Streaming s (k + a.segment.bytes.length) conn' := by
  have known := inv.known
  have le := a.segment.le
  rw [bufSize] at le
  have limit : InLimit S.E s.plain.length := by
    rw [ClientStream.length_plain]
    exact s.limit
  obtain ⟨buf, received, holds, -, -⟩ := Pipe.receive_spec a.segment inv.room
  rw [bytes] at holds
  obtain ⟨out, ctx, decrypted, outHolds, at_, -, -, room⟩ :=
    decryptBuf_next lawful a.tmp a.ivCache known.ctx holds (by omega) limit
  rw [ClientStream.window_plain] at outHolds
  obtain ⟨c, hctx, init, hiv, pos⟩ := at_
  have more : s.body.take k ++ window s.body k a.segment.bytes.length = s.body.take (k + a.segment.bytes.length) := by
    rw [take_add_window]
  have ok : BodyOk P s.iv s.auth (s.body.take k ++ window s.body k a.segment.bytes.length) := by
    have whole := s.bodyOk
    rw [more]
    rw [← List.take_append_drop (k + a.segment.bytes.length) s.body] at whole
    exact whole.of_append
  have within : (window s.body k a.segment.bytes.length).length ≤ a.segment.bytes.length := List.length_take_le _ _
  obtain ⟨out', chunk, piece, checked, outHolds', payload, checking, -, grown⟩ :=
    checkHash_spec (E := S.E) s.ivLen hctx hiv known.checking outHolds (by omega) ok
  rw [more] at payload checking
  have pushed := Pipe.push_full (p := ({ conn.up with buf := out' } : Pipe).produce) outHolds'
  refine ⟨{ conn with
      up := { ({ conn.up with buf := out' } : Pipe).produce with accepted := conn.up.accepted ++ piece }
      dCtx := ctx, chunk }, ?_,
    ⟨known.header, known.auth, checking, c, hctx, init, hiv, ?_⟩, inv.phase, inv.filling, inv.idle, ?_, ?_⟩
  · have fired : (machine S).fire conn
        (.serverRecv { recv := .data a.segment, tmp := a.tmp, ivCache := a.ivCache } {}) = .ok { conn with
          up := { ({ conn.up with buf := out' } : Pipe).produce with accepted := conn.up.accepted ++ piece }
          dCtx := ctx, chunk } := by
      simp only [machine, fire, serverRecvCb, inv.phase, reduceCtorEq, if_false, if_true, received, ok_bind, decrypted,
        known.auth, checked, pushed, pure_eq_ok]
      rfl
    rw [serve, List.flatMap_cons, offered]
    refine ((Machine.offers_fire _ inv.filling fired).trans (Machine.offers_skip _ ?_)).trans (Machine.offers_skip _ inv.idle)
    simp only [machine, enabled, inv.phase, reduceCtorEq, decide_false]
  · rw [← Nat.add_assoc]
    exact pos
  · rw [← payload, ← inv.accepted]
  · exact Nat.le_trans room grown

/-! ## The whole stream -/

/-- From stage 5 on, the rest of the stream comes through however it is cut. -/
theorem Streaming.run (lawful : P.evp.Lawful) {as : List Arrival} {k : Nat} (inv : Streaming s k conn)
    (cut : received as = (cipherBody S.E s.iv s.plain).drop (s.head.length + k)) :
    ∃ conn', serve S conn as = .ok conn' ∧ conn'.header = some s.header ∧ conn'.up.accepted = s.payload := by
  induction as generalizing conn k with
  | nil =>
    have beyond : s.body.length ≤ k := by
      have len := congrArg List.length cut
      rw [List.length_drop, length_cipherBody lawful, ClientStream.length_plain, received_nil, List.length_nil] at len
      omega
    refine ⟨conn, rfl, inv.known.header, ?_⟩
    rw [inv.accepted, List.take_of_length_le beyond, ClientStream.payload]
  | cons a as ih =>
    rw [received_cons] at cut
    have here : a.segment.bytes = window (cipherBody S.E s.iv s.plain) (s.head.length + k) a.segment.bytes.length := by
      rw [window, ← cut, List.take_left' rfl]
    obtain ⟨conn', step, inv'⟩ := inv.next lawful a as here
    rw [step]
    refine ih inv' ?_
    rw [← Nat.add_assoc, ← List.drop_drop, ← cut, List.drop_left' rfl]

/-- From stage 0 on: served if the header is there when it is read, else closed. By induction on
the segments: `server_recv_cb` waits while nothing is behind the IV, and the first segment that
brings more is the one at which the header is looked at, once and for all. -/
theorem Collecting.run (lawful : P.evp.Lawful) {as : List Arrival} (inv : Collecting S seen conn)
    (cut : seen ++ received as = s.wire) (short : seen.length ≤ S.E.ivLen) (possible : Possible s.iv seen.length as) :
    (S.E.ivLen + s.head.length ≤ firstLook S.E.ivLen seen.length as →
      ∃ conn', serve S conn as = .ok conn' ∧ conn'.header = some s.header ∧ conn'.up.accepted = s.payload) ∧
    (firstLook S.E.ivLen seen.length as < S.E.ivLen + s.head.length →
      ∃ why, serve S conn as = .error (.closed why)) := by
  have ivLen := s.ivLen
  have whole : s.wire = s.iv ++ cipherBody S.E s.iv s.plain := ciphertext_eq S.E s.iv s.plain
  have size := length_cipherBody (E := S.E) lawful s.iv s.plain
  rw [ClientStream.length_plain] at size
  have some_ : 3 ≤ s.head.length := by
    rw [ClientStream.head, length_head S.E s.iv s.valid]
    omega
  induction as generalizing conn seen with
  | nil =>
    have len := congrArg List.length cut
    rw [received_nil, List.append_nil, whole, List.length_append] at len
    omega
  | cons a as ih =>
    obtain ⟨fits, fresh, later⟩ := possible (by omega)
    rw [received_cons, ← List.append_assoc] at cut
    simp only [firstLook, if_pos short]
    by_cases more : seen.length + a.segment.bytes.length ≤ S.E.ivLen
    · obtain ⟨conn', step, inv'⟩ := inv.wait a as more
      rw [step]
      have len : (seen ++ a.segment.bytes).length = seen.length + a.segment.bytes.length := List.length_append
      rw [← len] at later more ⊢
      exact ih inv' cut more later
    · have total : seen.length + a.segment.bytes.length =
          S.E.ivLen + (seen.length + a.segment.bytes.length - S.E.ivLen) := by omega
      have stop : firstLook S.E.ivLen (seen.length + a.segment.bytes.length) as =
          seen.length + a.segment.bytes.length := by
        cases as with
        | nil => rfl
        | cons b bs => rw [firstLook, if_neg more]
      rw [stop]
      rw [whole] at cut
      have len : (seen ++ a.segment.bytes).length = seen.length + a.segment.bytes.length := List.length_append
      obtain ⟨front, behind⟩ := split_behind (by rw [ivLen, len]; omega) cut
      rw [len, ivLen] at front behind
      obtain ⟨closed, served⟩ := inv.look lawful a as front (by omega) total fits fresh
      constructor
      · intro complete
        obtain ⟨conn', step, streaming⟩ := served (by omega)
        rw [step]
        refine streaming.run lawful ?_
        rw [behind]
        congr 1
        omega
      · intro part
        exact closed (by omega)

/-! ## How the stream is cut -/

/-- A way to cut the stream into results of `recv`. -/
structure Cutting (s : ClientStream S) where
  arrivals : List Arrival
  cut : received arrivals = s.wire
  possible : Possible s.iv 0 arrivals

/-- The recv that brings the first byte behind the IV leaves the whole header, with its
tag, in the buffer. -/
def Cutting.HeaderWhole (c : Cutting s) : Prop := S.E.ivLen + s.head.length ≤ firstLook S.E.ivLen 0 c.arrivals

end

/-- What became of a connection: it was closed or the process is gone, or what it
connects to (or has resolved) and what was forwarded there. -/
inductive Outcome where
  | closed
  | crashed
  | served (destination : Option Destination) (payload : Bytes)
  deriving DecidableEq, Repr

/-- `iv` is what `rand_bytes` gives for the answers. -/
def outcome (S : Config P) (iv : Bytes) (arrivals : List Arrival) : Outcome :=
  match serve S (acceptCb S iv) arrivals with
  | .error (.closed _) => .closed
  | .error (.crashed _) => .crashed
  | .ok conn => .served (conn.header.map (destination S.text)) conn.up.accepted

variable {S : Config P} {s : ClientStream S}

/-- A stream whose header is there when it is read is served as it is meant to be. -/
theorem serve_whole (lawful : P.evp.Lawful) (method : S.E.method ≠ .table) (iv : Bytes) (c : Cutting s)
    (whole : c.HeaderWhole) :
    ∃ conn, serve S (acceptCb S iv) c.arrivals = .ok conn ∧ conn.header = some s.header ∧
      conn.up.accepted = s.payload :=
  ((acceptCb_collecting S iv method).run lawful c.cut (Nat.zero_le _) c.possible).1 whole

/-- A stream of whose header only a part is there is refused. -/
theorem serve_part (lawful : P.evp.Lawful) (method : S.E.method ≠ .table) (iv : Bytes) (c : Cutting s)
    (part : ¬ c.HeaderWhole) : ∃ why, serve S (acceptCb S iv) c.arrivals = .error (.closed why) :=
  ((acceptCb_collecting S iv method).run lawful c.cut (Nat.zero_le _) c.possible).2 (Nat.lt_of_not_le part)

theorem outcome_whole (lawful : P.evp.Lawful) (method : S.E.method ≠ .table) (iv : Bytes) (c : Cutting s)
    (whole : c.HeaderWhole) : outcome S iv c.arrivals = .served (some (destination S.text s.header)) s.payload := by
  obtain ⟨conn, served, header, accepted⟩ := serve_whole lawful method iv c whole
  rw [outcome, served]
  dsimp only
  rw [header, accepted]
  rfl

theorem outcome_part (lawful : P.evp.Lawful) (method : S.E.method ≠ .table) (iv : Bytes) (c : Cutting s)
    (part : ¬ c.HeaderWhole) : outcome S iv c.arrivals = .closed := by
  obtain ⟨why, refused⟩ := serve_part lawful method iv c part
  rw [outcome, refused]

/-- Two cuttings of one stream have the same outcome exactly if the header is whole when
it is read in both of them, or in neither. -/
theorem outcome_eq_iff (lawful : P.evp.Lawful) (method : S.E.method ≠ .table) (iv : Bytes) (c₁ c₂ : Cutting s) :
    outcome S iv c₁.arrivals = outcome S iv c₂.arrivals ↔ (c₁.HeaderWhole ↔ c₂.HeaderWhole) := by
  by_cases whole₁ : c₁.HeaderWhole
  · by_cases whole₂ : c₂.HeaderWhole
    · rw [outcome_whole lawful method iv c₁ whole₁, outcome_whole lawful method iv c₂ whole₂]
      exact ⟨fun _ => ⟨fun _ => whole₂, fun _ => whole₁⟩, fun _ => rfl⟩
    · rw [outcome_whole lawful method iv c₁ whole₁, outcome_part lawful method iv c₂ whole₂]
      exact ⟨fun no => (by cases no), fun same => absurd (same.mp whole₁) whole₂⟩
  · by_cases whole₂ : c₂.HeaderWhole
    · rw [outcome_part lawful method iv c₁ whole₁, outcome_whole lawful method iv c₂ whole₂]
      exact ⟨fun no => (by cases no), fun same => absurd (same.mpr whole₂) whole₁⟩
    · rw [outcome_part lawful method iv c₁ whole₁, outcome_part lawful method iv c₂ whole₂]
      exact ⟨fun _ => ⟨fun w => absurd w whole₁, fun w => absurd w whole₂⟩, fun _ => rfl⟩

end

/-- ss-server with the method `rc4-md5`. -/
def rc4Md5Config : Config rc4Platform where
  E := { method := .rc4Md5, key := be32 7 ++ be32 1 ++ be32 3 ++ be32 2, encTable := id, decTable := id }
  text := { ntop4 := id, ntop6 := id, corkIpInit := fun _ => none, pton4 := fun _ => none, pton6 := fun _ => none }
  auth := false

/-- Four bytes for 10.0.0.1:80. -/
def fourBytes : ClientStream rc4Md5Config where
  iv := be32 9 ++ be32 8 ++ be32 7 ++ be32 6
  header := { addr := .ipv4 [10, 0, 0, 1], port := [0, 80] }
  flag := false
  body := [65, 66, 67, 68]
  ivLen := rfl
  valid := by decide
  bodyOk := fun no => by cases no
  limit := fun no => by cases no

theorem length_fourBytes : fourBytes.wire.length = 27 := by
  rw [ClientStream.wire, ciphertext_eq, List.length_append, length_cipherBody rc4_lawful]
  rfl

theorem front_fits {n : Nat} (inside : 0 < n ∧ n < 27) :
    0 < (fourBytes.wire.take n).length ∧ (fourBytes.wire.take n).length ≤ bufSize := by
  rw [List.length_take, length_fourBytes, bufSize]
  omega

theorem back_fits {n : Nat} (inside : 0 < n ∧ n < 27) :
    0 < (fourBytes.wire.drop n).length ∧ (fourBytes.wire.drop n).length ≤ bufSize := by
  rw [List.length_drop, length_fourBytes, bufSize]
  omega

theorem halves_fit (n : Nat) : (fourBytes.wire.take n).length + (fourBytes.wire.drop n).length ≤ bufSize := by
  rw [List.length_take, List.length_drop, length_fourBytes, bufSize]
  omega

theorem possible_two (iv : Bytes) {a b : Segment} (fits : a.bytes.length + b.bytes.length ≤ bufSize) :
    Possible iv 0 [{ segment := a }, { segment := b }] := by
  have unknown : iv ∉ (cacheCreate Unit 1024).keys := by simp [cacheCreate, Cache.keys]
  refine fun _ => ⟨?_, unknown, fun _ => ⟨?_, unknown, trivial⟩⟩
  · dsimp only
    omega
  · dsimp only
    omega

/-- The stream cut behind its first `n` bytes. -/
def cutAt (n : Nat) (inside : 0 < n ∧ n < 27) : Cutting fourBytes where
  arrivals := [
    { segment := { bytes := fourBytes.wire.take n, pos := (front_fits inside).1, le := (front_fits inside).2 } },
    { segment := { bytes := fourBytes.wire.drop n, pos := (back_fits inside).1, le := (back_fits inside).2 } }]
  cut := by simp only [received_cons, received_nil, List.append_nil, List.take_append_drop]
  possible := possible_two fourBytes.iv (halves_fit n)

/-- Cut inside the IV and cut behind the header. -/
theorem outcome_eq_iff_outside :
    outcome rc4Md5Config [] (cutAt 5 (by decide)).arrivals = outcome rc4Md5Config [] (cutAt 24 (by decide)).arrivals := by
  refine (outcome_eq_iff rc4_lawful (by decide) [] (cutAt 5 (by decide)) (cutAt 24 (by decide))).mpr ?_
  have first : (cutAt 5 (by decide)).HeaderWhole := by
    simp only [Cutting.HeaderWhole, cutAt, firstLook, List.length_take, List.length_drop, length_fourBytes]
    decide
  have second : (cutAt 24 (by decide)).HeaderWhole := by
    simp only [Cutting.HeaderWhole, cutAt, firstLook, List.length_take, List.length_drop, length_fourBytes]
    decide
  exact ⟨fun _ => second, fun _ => first⟩

/-- Cut inside the header the stream is refused, cut behind it it is served. -/
theorem outcome_cut_header :
    outcome rc4Md5Config [] (cutAt 20 (by decide)).arrivals = .closed ∧
    outcome rc4Md5Config [] (cutAt 24 (by decide)).arrivals =
      .served (some (.sockaddr (.v4 [10, 0, 0, 1]) [0, 80])) [65, 66, 67, 68] := by
  have part : ¬ (cutAt 20 (by decide)).HeaderWhole := by
    simp only [Cutting.HeaderWhole, cutAt, firstLook, List.length_take, List.length_drop, length_fourBytes]
    decide
  have whole : (cutAt 24 (by decide)).HeaderWhole := by
    simp only [Cutting.HeaderWhole, cutAt, firstLook, List.length_take, List.length_drop, length_fourBytes]
    decide
  refine ⟨outcome_part rc4_lawful (by decide) [] _ part, ?_⟩
  rw [outcome_whole rc4_lawful (by decide) [] _ whole]
  rfl

end Shadowsocks.Server
