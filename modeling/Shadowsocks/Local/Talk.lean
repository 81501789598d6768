import Shadowsocks.Local.Request
import Shadowsocks.Relay.Plain

/-!
# ss-local on one client stream

A client sends a greeting, a request and a payload, and the network cuts this stream
anywhere. Whatever is behind the request in its segment goes out with the header, and
later segments follow as they come, each in a chunk of its own if the client
authenticates. All this is in one environment: the connect to the remote is in progress
when it is asked for and then succeeds, and the remote takes all that is sent. What holds
for any results of connect and send is in `Local.Relay`.
-/

namespace Shadowsocks.Local
set_option autoImplicit false
open Lib

section
variable {P : Platform}

/-- The events that come with a segment: the connect (the default of the results) is in
progress, and the remote takes all it is sent, as soon as it is waited for. -/
def offered (a : Arrival) : List Event :=
  [.serverRecv { recv := .data a.segment, encTmp := a.tmp }, .remoteSend true .full]

/-- The connection after these segments. -/
def talk (C : Config P) (conn : Conn P) (arrivals : List Arrival) : Except Stop (Conn P) :=
  (machine C).offers conn (arrivals.flatMap offered)

/-- The stages from the request on, as `server_recv_cb` goes through them. -/
def request (C : Config P) (conn : Conn P) (e : ServerRecv) : Except Stop (Conn P) := do
  let (remote, conn) ← handleRequest C conn e
  relayUp C conn remote e

/-- What segments of payload become on their way out, the first of them chunk number `i`. -/
def framed (C : Config P) (iv : Bytes) (direct : Bool) (i : Nat) (segs : List Bytes) : Bytes :=
  if !direct && C.auth then Framing.wire (otaChunk P iv) i segs else segs.flatten

theorem framed_nil (C : Config P) (iv : Bytes) (direct : Bool) (i : Nat) : framed C iv direct i [] = [] := by
  unfold framed
  split <;> rfl

/-- The number of the next chunk; without chunks it stays. -/
def nextChunk (C : Config P) (direct : Bool) (i : Nat) : Nat := if !direct && C.auth then i + 1 else i

theorem framed_cons (C : Config P) (iv : Bytes) (direct : Bool) (i : Nat) (seg : Bytes) (segs : List Bytes) :
    framed C iv direct i (seg :: segs) = framed C iv direct i [seg] ++ framed C iv direct (nextChunk C direct i) segs := by
  unfold framed nextChunk
  split
  · simp only [Framing.wire, List.append_nil]
  · simp only [List.flatten_cons, List.flatten_nil, List.append_nil]

/-- What the remote has got of a plain text. -/
def onWire (C : Config P) (iv : Bytes) (direct : Bool) (plain : Bytes) : Bytes :=
  if direct then plain else ciphertext C.E iv plain

/-! ## The states of the connection -/

/-- Nothing has been sent to a remote. -/
structure Before (C : Config P) (iv replies : Bytes) (conn : Conn P) : Prop where
  filling : conn.up.filling = true
  idle : conn.up.draining = false
  accepted : conn.up.accepted = []
  plain : conn.plain = []
  ctx : conn.eCtx = some (encCtxInit C.E true iv)
  room : conn.down.buf.array.length = bufSize
  replies : conn.replies = replies

/-- What is known of a connection once the request has been read: `sent` is what was
meant for the remote so far. -/
structure Known (C : Config P) (iv : Bytes) (h : Header) (direct : Bool) (sent : Bytes) (conn : Conn P) : Prop where
  replies : conn.replies = [5, 0] ++ fakeReply
  header : conn.header = some (h.encode false)
  plain : conn.plain = sent
  ctx : direct = false → EncAt C.E iv (some sent) conn.eCtx

/-- The remote is being connected, with the first data in its buffer. The next chunk is
number `i`. -/
structure Opened (C : Config P) (iv : Bytes) (h : Header) (direct : Bool) (sent : Bytes) (i : Nat) (conn : Conn P) :
    Prop where
  known : Known C iv h direct sent conn
  phase : conn.phase = .stream { direct, counter := u32 i, sendTimer := true }
  draining : conn.up.draining = true
  accepted : conn.up.accepted = []
  buf : conn.up.buf.Holds (onWire C iv direct sent)
  idx : conn.up.buf.idx = 0
  room : bufSize ≤ conn.up.buf.array.length

/-- The remote is connected and has taken everything. -/
structure Relaying (C : Config P) (iv : Bytes) (h : Header) (direct : Bool) (sent : Bytes) (i : Nat) (conn : Conn P) :
    Prop where
  known : Known C iv h direct sent conn
  phase : ∃ r, conn.phase = .stream r ∧ r.direct = direct ∧ r.connected = true ∧ r.counter = u32 i
  filling : conn.up.filling = true
  idle : conn.up.draining = false
  accepted : conn.up.accepted = onWire C iv direct sent
  room : bufSize ≤ conn.up.buf.array.length

variable {C : Config P} {iv : Bytes} {h : Header} {conn : Conn P} {direct : Bool} {plain : Bytes} {i : Nat}

/-! ## The first contents of `remote->buf` -/

/-- The header gets its flag and its tag. -/
theorem authHeader_spec (ivLen : iv.length = C.E.ivLen) (valid : h.Valid) {abuf : Buffer} {ctx : Option (EncCtx P)}
    (fresh : ctx = some (encCtxInit C.E true iv)) (holds : abuf.Holds (h.encode false)) :
    ∃ abuf', authHeader C.E C.auth ctx abuf = .ok abuf' ∧ abuf'.Holds (head C.E iv h C.auth C.auth) := by
  unfold authHeader
  cases auth : C.auth with
  | false => exact ⟨abuf, rfl, by rw [head_unauthenticated]; exact holds⟩
  | true =>
    have size := Header.length_encode valid true
    have body := valid.1.length_body
    have first : abuf.byte 0 = .ok h.addr.atyp := holds.byte [] h.addr.atyp (h.addr.body ++ h.port)
    have parts : abuf.Holds ([h.addr.atyp] ++ (h.addr.body ++ h.port)) := holds
    obtain ⟨flagged, wrote, flags, -⟩ := parts.overwrite (show _ = [h.addr.atyp ||| 0x10].length from rfl)
    have encoded : flagged.Holds (h.encode true) := flags
    have len := encoded.len
    obtain ⟨tagged, call, -, fits, -, bytes⟩ := ssOnetimeauth_spec encoded.fits (by omega)
      (show bufSize < 2 ^ 63 by decide) ivLen
    have sameIv : (encCtxInit C.E true iv).iv = iv := rfl
    refine ⟨tagged, ?_, fits, ?_⟩
    · simp only [if_true, first, orCrash_ok, ok_bind, wrote, fresh, deref_some, sameIv, call]
    · rw [bytes, encoded.bytes, head, if_pos rfl]

section
variable {abuf buf : Buffer} {ctx : Option (EncCtx P)} {rest : Bytes}

/-- A direct connection takes what is behind the request. -/
theorem fillRemote_direct (C : Config P) (ctx : Option (EncCtx P)) (abuf : Buffer) (holds : buf.Holds rest)
    (small : rest.length ≤ bufSize) :
    ∃ rbuf, fillRemote C ctx abuf buf true = .ok (rbuf, buf, u32 0) ∧ rbuf.Holds rest ∧
      bufSize ≤ rbuf.array.length := by
  have len := holds.len
  have room : (balloc P.junk bufSize).array.length = bufSize := length_balloc _ _
  simp only [fillRemote, if_true]
  split
  · have size : (splice (balloc P.junk bufSize).array 0 rest).length = bufSize := by
      rw [length_splice (by omega), room]
    rw [holds.readAll, orCrash_ok, ok_bind, Buffer.write_ok (by omega), orCrash_ok, ok_bind]
    refine ⟨_, rfl, ⟨?_, ?_⟩, Nat.le_of_eq size.symm⟩
    · dsimp only [Buffer.Fits]
      omega
    · dsimp only [Buffer.bytes]
      rw [len]
      exact window_splice_self _ _ _ (Nat.zero_le _)
  · have empty : rest = [] := List.eq_nil_of_length_eq_zero (by omega)
    subst empty
    exact ⟨_, rfl, Buffer.holds_nil rfl, Nat.le_of_eq room.symm⟩

/-- The part that is common to all proxied connections: the header in a buffer with room
for what is behind it. -/
theorem fillRemote_header (ivLen : iv.length = C.E.ivLen) (valid : h.Valid)
    (fresh : ctx = some (encCtxInit C.E true iv)) (holds : buf.Holds rest) (small : rest.length ≤ bufSize)
    (header : abuf.Holds (h.encode false)) :
    ∃ array, array.length = max bufSize ((head C.E iv h C.auth C.auth).length + rest.length) ∧
      fillRemote C ctx abuf buf false =
        if 0 < rest.length then do
          let (buf, counter) ← genHash C.E C.auth ctx buf 0
          let data ← orCrash (buf.read 0 buf.len)
          let rbuf ← orCrash (Buffer.write
            { idx := 0, len := rest.length + (head C.E iv h C.auth C.auth).length
              array := splice array 0 (head C.E iv h C.auth C.auth) } (head C.E iv h C.auth C.auth).length data)
          pure (rbuf, buf, counter)
        else pure ({ idx := 0, len := rest.length + (head C.E iv h C.auth C.auth).length
                     array := splice array 0 (head C.E iv h C.auth C.auth) }, buf, 0) := by
  have cap : bufSize = 2048 := rfl
  have len := holds.len
  have short := length_head_le C.E iv valid C.auth C.auth
  have alloc : (balloc P.junk bufSize).array.length = bufSize := length_balloc _ _
  obtain ⟨abuf', tagged, abufHolds⟩ := authHeader_spec ivLen valid fresh header
  have abufLen := abufHolds.len
  obtain ⟨rbuf, eq, size⟩ := brealloc_length P.junk (balloc P.junk bufSize) (buf.len + abuf'.len) bufSize (by omega)
  obtain ⟨more, same⟩ := brealloc_cases eq
  subst same
  refine ⟨(balloc P.junk bufSize).array ++ more, by dsimp only at size; omega, ?_⟩
  dsimp only at size
  simp only [fillRemote, Bool.false_eq_true, if_false, tagged, ok_bind, eq, orCrash_ok, abufHolds.readAll]
  rw [Buffer.write_ok (by dsimp only; omega), orCrash_ok, ok_bind, len, abufLen]
  rfl

/-- Without authentication, or with nothing behind the request, the remote is sent the
header and the rest. -/
theorem fillRemote_proxied (ivLen : iv.length = C.E.ivLen) (valid : h.Valid)
    (fresh : ctx = some (encCtxInit C.E true iv)) (holds : buf.Holds rest) (small : rest.length ≤ bufSize)
    (header : abuf.Holds (h.encode false)) (plainly : C.auth = false ∨ rest = []) :
    ∃ rbuf, fillRemote C ctx abuf buf false = .ok (rbuf, buf, u32 0) ∧
      rbuf.Holds (head C.E iv h C.auth C.auth ++ rest) ∧ bufSize ≤ rbuf.array.length := by
  obtain ⟨array, alloc, eq⟩ := fillRemote_header ivLen valid fresh holds small header
  have room : (head C.E iv h C.auth C.auth).length + rest.length ≤ array.length := by omega
  have size : (splice array 0 (head C.E iv h C.auth C.auth)).length = array.length := length_splice (by omega)
  rw [eq]
  split
  · rename_i some_
    have off : C.auth = false := by
      rcases plainly with off | empty
      · exact off
      · rw [empty] at some_
        cases some_
    have same : genHash C.E C.auth ctx buf 0 = .ok (buf, 0) := by
      rw [off]
      rfl
    have size' : (splice (splice array 0 (head C.E iv h C.auth C.auth)) (head C.E iv h C.auth C.auth).length rest).length =
        array.length := by rw [length_splice (by omega), size]
    rw [same, ok_bind]
    dsimp only
    rw [holds.readAll, orCrash_ok, ok_bind, Buffer.write_ok (by dsimp only; omega), orCrash_ok, ok_bind]
    refine ⟨_, rfl, ⟨?_, ?_⟩, by dsimp only; omega⟩
    · dsimp only [Buffer.Fits]
      omega
    · dsimp only [Buffer.bytes]
      rw [Nat.add_comm]
      exact window_splice_two _ _ _ room
  · have empty : rest = [] := List.eq_nil_of_length_eq_zero (by omega)
    subst empty
    refine ⟨_, rfl, ⟨?_, ?_⟩, by dsimp only; omega⟩
    · dsimp only [Buffer.Fits]
      omega
    · dsimp only [Buffer.bytes]
      rw [List.length_nil, Nat.zero_add, List.append_nil]
      exact window_splice_self _ _ _ (Nat.zero_le _)

/-- With authentication, the rest becomes a chunk before it is copied. -/
theorem fillRemote_chunk (ivLen : iv.length = C.E.ivLen) (valid : h.Valid)
    (fresh : ctx = some (encCtxInit C.E true iv)) (holds : buf.Holds rest) (small : rest.length ≤ bufSize)
    (header : abuf.Holds (h.encode false)) (room : bufSize ≤ buf.array.length) (auth : C.auth = true)
    (some_ : 0 < rest.length) :
    ∃ array chunk, array.length = max bufSize ((head C.E iv h true true).length + rest.length) ∧
      chunk.Holds (otaChunk P iv 0 rest) ∧ bufSize ≤ chunk.array.length ∧
      fillRemote C ctx abuf buf false = (do
        let rbuf ← orCrash (Buffer.write
          { idx := 0, len := rest.length + (head C.E iv h true true).length
            array := splice array 0 (head C.E iv h true true) } (head C.E iv h true true).length (otaChunk P iv 0 rest))
        pure (rbuf, chunk, u32 1)) := by
  have cap : bufSize = 2048 := rfl
  have len := holds.len
  obtain ⟨array, alloc, eq⟩ := fillRemote_header ivLen valid fresh holds small header
  rw [auth] at eq alloc
  have ivTake : (encCtxInit C.E true iv).iv.take C.E.ivLen = iv := List.take_of_length_le (Nat.le_of_eq ivLen)
  obtain ⟨chunk, hashed, -, fits, grown, bytes⟩ := ssGenHash_spec (E := C.E) (encCtxInit C.E true iv) iv (i := 0)
    holds.fits (by omega) (show bufSize < 2 ^ 63 by decide) ivTake
  rw [holds.bytes] at bytes
  have chunkHolds : chunk.Holds (otaChunk P iv 0 rest) := ⟨fits, bytes⟩
  have call : genHash C.E true ctx buf 0 = .ok (chunk, u32 1) := by
    rw [fresh]
    simp only [genHash, if_true, deref_some, orCrash_ok, ok_bind]
    exact congrArg orCrash hashed
  refine ⟨array, chunk, alloc, chunkHolds, Nat.le_trans room grown, ?_⟩
  rw [eq, if_pos some_, call, ok_bind]
  dsimp only
  rw [chunkHolds.readAll, orCrash_ok, ok_bind]

/-- The length of `remote->buf` is computed before that: twelve bytes are not counted, and
they may not fit either. -/
theorem fillRemote_truncates (ivLen : iv.length = C.E.ivLen) (valid : h.Valid)
    (fresh : ctx = some (encCtxInit C.E true iv)) (holds : buf.Holds rest)
    (header : abuf.Holds (h.encode false)) (room : bufSize ≤ buf.array.length) (auth : C.auth = true)
    (some_ : 0 < rest.length) (fit : (head C.E iv h true true).length + rest.length + authBytes ≤ bufSize) :
    ∃ rbuf sbuf, fillRemote C ctx abuf buf false = .ok (rbuf, sbuf, u32 1) ∧
      rbuf.Holds (head C.E iv h true true ++ (otaChunk P iv 0 rest).take rest.length) ∧
      bufSize ≤ rbuf.array.length ∧ bufSize ≤ sbuf.array.length := by
  have twelve : authBytes = 12 := rfl
  have long := length_otaChunk P iv 0 rest
  obtain ⟨array, chunk, alloc, -, chunkRoom, eq⟩ := fillRemote_chunk ivLen valid fresh holds (by omega) header room auth some_
  have size : (splice array 0 (head C.E iv h true true)).length = array.length := length_splice (by omega)
  have size' : (splice (splice array 0 (head C.E iv h true true)) (head C.E iv h true true).length
      (otaChunk P iv 0 rest)).length = array.length := by rw [length_splice (by omega), size]
  rw [eq, Buffer.write_ok (by dsimp only; omega), orCrash_ok, ok_bind]
  refine ⟨_, chunk, rfl, ⟨?_, ?_⟩, by dsimp only; omega, chunkRoom⟩
  · dsimp only [Buffer.Fits]
    omega
  · dsimp only [Buffer.bytes]
    have whole := window_splice_two array (head C.E iv h true true) (otaChunk P iv 0 rest) (by omega)
    have part := congrArg (List.take (rest.length + (head C.E iv h true true).length)) whole
    rw [take_eq_window, window_window _ (by omega), Nat.zero_add] at part
    rw [part, List.take_append, List.take_of_length_le (by omega), Nat.add_sub_cancel]

/-- Where they do not fit, the copy leaves the buffer. -/
theorem fillRemote_overflows (ivLen : iv.length = C.E.ivLen) (valid : h.Valid)
    (fresh : ctx = some (encCtxInit C.E true iv)) (holds : buf.Holds rest) (small : rest.length ≤ bufSize)
    (header : abuf.Holds (h.encode false)) (room : bufSize ≤ buf.array.length) (auth : C.auth = true)
    (some_ : 0 < rest.length) (long : ¬ (head C.E iv h true true).length + rest.length + authBytes ≤ bufSize) :
    fillRemote C ctx abuf buf false = .error (.crashed .outOfBounds) := by
  have twelve : authBytes = 12 := rfl
  have size := length_otaChunk P iv 0 rest
  obtain ⟨array, chunk, alloc, -, -, eq⟩ := fillRemote_chunk ivLen valid fresh holds small header room auth some_
  have same : (splice array 0 (head C.E iv h true true)).length = array.length := length_splice (by omega)
  rw [eq, Buffer.write, store, if_neg (by dsimp only; omega)]
  rfl

end

/-! ## The request -/

/-- `remote->buf` as it has been filled goes out encrypted, or as it is. Stage 1 does not look at
the socket of the remote. What goes through the server is the first to be encrypted. -/
theorem request_spec (lawful : P.evp.Lawful) (ivLen : iv.length = C.E.ivLen) {abuf buf rbuf sbuf : Buffer} {segment : Segment}
    (tmp : Buffer) (before : Before C iv [5, 0] conn) (cmd : conn.down.buf.byte 1 = .ok 1)
    (read : readRequest C conn.down.buf = .ok (abuf, buf, direct)) (header : abuf.Holds (h.encode false))
    (filled : fillRemote C conn.eCtx abuf buf direct = .ok (rbuf, sbuf, u32 i)) (first : rbuf.Holds plain)
    (rbufRoom : bufSize ≤ rbuf.array.length) (sbufRoom : bufSize ≤ sbuf.array.length)
    (small : plain.length < 2 ^ 61) (limit : InLimit C.E plain.length) :
    ∃ conn', request C conn { recv := .data segment, encTmp := tmp } = .ok conn' ∧
      Opened C iv h direct plain i conn' := by
  have cap : bufSize = 2048 := rfl
  have ten : fakeReply.length = 10 := rfl
  have created : createRemote direct { recv := .data segment, encTmp := tmp } = .ok { direct } := by
    cases direct <;> rfl
  have handled : handleRequest C conn { recv := .data segment, encTmp := tmp } =
      .ok ({ direct, counter := u32 i }, { conn with
        phase := .stream { direct, counter := u32 i }
        up := { conn.up with buf := rbuf }
        down := { conn.down with buf := { sbuf with array := splice sbuf.array 0 fakeReply } }
        replies := conn.replies ++ fakeReply, header := some abuf.bytes }) := by
    have other : (!C.tcpOnly && (1 : UInt8) == 3) = false := by rw [show ((1 : UInt8) == 3) = false by decide, Bool.and_false]
    simp only [handleRequest, cmd, orCrash_ok, ok_bind, other, Bool.false_eq_true, if_false, ne_eq, not_true, read, created,
      filled, Buffer.write_ok (show 0 + fakeReply.length ≤ sbuf.array.length by omega), SendResult.on, Nat.lt_irrefl,
      pure_eq_ok]
  have replies : conn.replies ++ fakeReply = [5, 0] ++ fakeReply := by rw [before.replies]
  rw [request, handled, ok_bind]
  cases direct with
  | true =>
    have sent : relayUp C { conn with
        phase := .stream { direct := true, counter := u32 i }
        up := { conn.up with buf := rbuf }
        down := { conn.down with buf := { sbuf with array := splice sbuf.array 0 fakeReply } }
        replies := conn.replies ++ fakeReply, header := some abuf.bytes } { direct := true, counter := u32 i }
        { recv := .data segment, encTmp := tmp } = .ok { conn with
          phase := .stream { direct := true, counter := u32 i, sendTimer := true }
          up := ({ ({ conn.up with buf := rbuf } : Pipe).produce with
            buf := { rbuf with idx := 0 } } : Pipe).await
          down := { conn.down with buf := { sbuf with array := splice sbuf.array 0 fakeReply } }
          replies := conn.replies ++ fakeReply, header := some abuf.bytes
          plain := conn.plain ++ rbuf.bytes } := by
      simp only [relayUp, encryptUp, Bool.false_eq_true, if_false, pure_eq_ok, ok_bind, openRemote, Bool.not_true,
        Bool.and_false, Bool.not_false, Bool.true_or, if_true]
      rfl
    refine ⟨_, sent, ⟨replies, congrArg some header.bytes, ?_, fun no => (by cases no)⟩, rfl, rfl, before.accepted, ?_, rfl,
      rbufRoom⟩
    · dsimp only
      rw [before.plain, first.bytes]
      rfl
    · exact ⟨first.fits, first.bytes⟩
  | false =>
    have fresh : EncAt C.E iv none conn.eCtx := before.ctx
    obtain ⟨out, ctx, piece, encrypted, holds, whole, at_, -, -, room⟩ := encryptBuf_spec lawful ivLen tmp fresh first small
      (by rw [Option.getD_none, List.length_nil, Nat.zero_add]; exact limit)
    rw [Option.getD_none, List.nil_append] at at_ whole
    have wire : piece = ciphertext C.E iv plain := whole
    subst wire
    have sent : relayUp C { conn with
        phase := .stream { direct := false, counter := u32 i }
        up := { conn.up with buf := rbuf }
        down := { conn.down with buf := { sbuf with array := splice sbuf.array 0 fakeReply } }
        replies := conn.replies ++ fakeReply, header := some abuf.bytes } { direct := false, counter := u32 i }
        { recv := .data segment, encTmp := tmp } = .ok { conn with
          phase := .stream { direct := false, counter := u32 i, sendTimer := true }
          up := ({ ({ conn.up with buf := out } : Pipe).produce with
            buf := { out with idx := 0 } } : Pipe).await
          down := { conn.down with buf := { sbuf with array := splice sbuf.array 0 fakeReply } }
          eCtx := ctx, replies := conn.replies ++ fakeReply, header := some abuf.bytes
          plain := conn.plain ++ rbuf.bytes } := by
      simp only [relayUp, encryptUp, Bool.false_eq_true, if_false, Bool.false_and, genHash, pure_eq_ok, ok_bind, encrypted,
        openRemote, Bool.not_true, Bool.and_false, Bool.not_false, Bool.true_or, if_true]
      rfl
    refine ⟨_, sent, ⟨replies, congrArg some header.bytes, ?_, fun _ => at_⟩, rfl, rfl, before.accepted, ?_, rfl, room⟩
    · dsimp only
      rw [before.plain, first.bytes]
      rfl
    · exact ⟨holds.fits, holds.bytes⟩

/-- What is sent first. -/
def firstData (C : Config P) (iv : Bytes) (h : Header) (direct : Bool) (rest : Bytes) : Bytes :=
  if direct then rest else head C.E iv h C.auth C.auth ++ rest

section
variable {a c : UInt8} {rest : Bytes}

/-- A request for a direct connection, or without authentication, or with nothing behind
it. -/
theorem request_clean (lawful : P.evp.Lawful) (ivLen : iv.length = C.E.ivLen) (segment : Segment) (tmp : Buffer) (valid : h.Valid)
    (before : Before C iv [5, 0] conn) (holds : conn.down.buf.Holds ([a, 1, c] ++ h.encode false ++ rest))
    (clean : choice C h rest = true ∨ C.auth = false ∨ rest = [])
    (limit : InLimit C.E (firstData C iv h (choice C h rest) rest).length) :
    ∃ conn', request C conn { recv := .data segment, encTmp := tmp } = .ok conn' ∧
      Opened C iv h (choice C h rest) (firstData C iv h (choice C h rest) rest) 0 conn' := by
  have cap : bufSize = 2048 := rfl
  have room := holds.room
  have short := length_head_le C.E iv valid C.auth C.auth
  rw [List.length_append, before.room] at room
  have cmd : conn.down.buf.byte 1 = .ok 1 := holds.byte [a] 1 (c :: (h.encode false ++ rest))
  obtain ⟨abuf, buf, read, header, -, behind, size, -⟩ := readRequest_spec C valid holds
  have bufRoom : bufSize ≤ buf.array.length := Nat.le_of_eq (size.trans before.room).symm
  cases direct : choice C h rest with
  | true =>
    obtain ⟨rbuf, filled, first, rbufRoom⟩ := fillRemote_direct C conn.eCtx abuf behind (by omega)
    rw [direct] at read limit
    refine request_spec (i := 0) lawful ivLen tmp before cmd read header filled first rbufRoom bufRoom ?_ limit
    rw [firstData, if_pos rfl]
    omega
  | false =>
    have plainly : C.auth = false ∨ rest = [] := by
      rcases clean with yes | plainly
      · rw [direct] at yes
        cases yes
      · exact plainly
    obtain ⟨rbuf, filled, first, rbufRoom⟩ := fillRemote_proxied ivLen valid before.ctx behind (by omega) header plainly
    rw [direct] at read limit
    refine request_spec (i := 0) lawful ivLen tmp before cmd read header filled first rbufRoom bufRoom ?_ limit
    simp only [firstData, Bool.false_eq_true, if_false, List.length_append]
    omega

/-- A request for a proxied connection with authentication and with something behind it. -/
theorem request_truncates (lawful : P.evp.Lawful) (ivLen : iv.length = C.E.ivLen) (segment : Segment) (tmp : Buffer) (valid : h.Valid)
    (before : Before C iv [5, 0] conn) (holds : conn.down.buf.Holds ([a, 1, c] ++ h.encode false ++ rest))
    (proxied : choice C h rest = false) (auth : C.auth = true) (some_ : 0 < rest.length) :
    (∃ t, request C conn { recv := .data segment, encTmp := tmp } = .error t) ∨
    ∃ conn', request C conn { recv := .data segment, encTmp := tmp } = .ok conn' ∧
      Opened C iv h false (head C.E iv h true true ++ (otaChunk P iv 0 rest).take rest.length) 1 conn' := by
  have cap : bufSize = 2048 := rfl
  have room := holds.room
  have short := length_head_le C.E iv valid true true
  rw [List.length_append, before.room] at room
  have cmd : conn.down.buf.byte 1 = .ok 1 := holds.byte [a] 1 (c :: (h.encode false ++ rest))
  obtain ⟨abuf, buf, read, header, -, behind, size, -⟩ := readRequest_spec C valid holds
  have bufRoom : bufSize ≤ buf.array.length := Nat.le_of_eq (size.trans before.room).symm
  rw [proxied] at read
  by_cases fit : (head C.E iv h true true).length + rest.length + authBytes ≤ bufSize
  · right
    obtain ⟨rbuf, sbuf, filled, first, rbufRoom, sbufRoom⟩ :=
      fillRemote_truncates ivLen valid before.ctx behind header bufRoom auth some_ fit
    have len : (head C.E iv h true true ++ (otaChunk P iv 0 rest).take rest.length).length < 2 ^ 38 := by
      have le := List.length_take_le rest.length (otaChunk P iv 0 rest)
      rw [List.length_append]
      omega
    have limit : 2 ^ 38 ≤ C.E.method.streamLimit := by cases C.E.method <;> decide
    refine request_spec (i := 1) lawful ivLen tmp before cmd read header filled first rbufRoom sbufRoom (by omega) ?_
    exact fun _ => by omega
  · left
    have failed := fillRemote_overflows ivLen valid before.ctx behind (by omega) header bufRoom auth some_ fit
    have other : (!C.tcpOnly && (1 : UInt8) == 3) = false := by rw [show ((1 : UInt8) == 3) = false by decide, Bool.and_false]
    have created : createRemote false { recv := .data segment, encTmp := tmp } = .ok { direct := false } := rfl
    refine ⟨.crashed .outOfBounds, ?_⟩
    simp only [request, handleRequest, cmd, orCrash_ok, ok_bind, other, Bool.false_eq_true, if_false, ne_eq, not_true, read,
      created, failed, error_bind]

/-- Only what begins with a whole request is accepted. -/
theorem request_inv {bytes : Bytes} {e : ServerRecv} {conn' : Conn P} (before : Before C iv [5, 0] conn)
    (holds : conn.down.buf.Holds bytes) (accepted : request C conn e = .ok conn') :
    ∃ (a c : UInt8) (h : Header) (rest : Bytes), h.Valid ∧ bytes = [a, 1, c] ++ h.encode false ++ rest := by
  obtain ⟨⟨remote, mid⟩, handled, -⟩ := bind_eq_ok.mp accepted
  obtain ⟨cmd, byte, handled⟩ := bind_eq_ok.mp handled
  rw [orCrash_eq_ok] at byte
  split at handled
  · cases handled
  · split at handled
    · cases handled
    · rename_i connect
      obtain ⟨⟨abuf, buf, direct⟩, read, -⟩ := bind_eq_ok.mp handled
      obtain ⟨a, b, c, h, rest, valid, eq⟩ := readRequest_inv
        (by rw [before.room]; decide) holds read
      have second : conn.down.buf.byte 1 = .ok b := by
        rw [eq] at holds
        exact holds.byte [a] b (c :: (h.encode false ++ rest))
      have one : b = 1 := by
        rw [byte] at second
        cases second
        exact Decidable.not_not.mp connect
      subst one
      exact ⟨a, c, h, rest, valid, eq⟩

end

/-- The remote accepts the connection and takes the first data. -/
theorem Opened.established (inv : Opened C iv h direct plain i conn) :
    ∃ conn', (machine C).fire conn (.remoteSend true .full) = .ok conn' ∧ Relaying C iv h direct plain i conn' := by
  have known := inv.known
  have len := inv.buf.len
  have fired : (machine C).fire conn (.remoteSend true .full) =
      remoteSendCb conn { direct, counter := u32 i, sendTimer := true } true .full := by
    simp only [machine, fire, inv.phase, Phase.remote?, deref_some, orCrash_ok, ok_bind]
  rw [fired]
  simp only [remoteSendCb, Bool.false_eq_true, if_false, if_true]
  split
  · rename_i none_
    have empty : onWire C iv direct plain = [] := List.eq_nil_of_length_eq_zero (by omega)
    refine ⟨_, rfl, ⟨known.replies, known.header, known.plain, known.ctx⟩, ⟨_, rfl, rfl, rfl, rfl⟩, rfl, rfl, ?_, inv.room⟩
    rw [empty]
    exact inv.accepted
  · rename_i some_
    have drained := Pipe.drain_full inv.buf inv.idx some_
    rw [drained, ok_bind]
    refine ⟨_, rfl, ⟨known.replies, known.header, known.plain, known.ctx⟩, ⟨_, rfl, rfl, rfl, rfl⟩, rfl, rfl, ?_, inv.room⟩
    dsimp only [Pipe.resume]
    rw [inv.accepted, List.nil_append]

/-- A segment that opens the connection is followed by the remote's answer. -/
theorem talk_opened {a : Arrival} {mid : Conn P} (as : List Arrival) (filling : conn.up.filling = true)
    (fired : serverRecvCb C conn { recv := .data a.segment, encTmp := a.tmp } = .ok mid)
    (opened : Opened C iv h direct plain i mid) :
    ∃ conn', talk C conn (a :: as) = talk C conn' as ∧ Relaying C iv h direct plain i conn' := by
  obtain ⟨conn', sent, relaying⟩ := opened.established
  refine ⟨conn', ?_, relaying⟩
  have step : (machine C).fire conn (.serverRecv { recv := .data a.segment, encTmp := a.tmp }) = .ok mid := fired
  have on : (machine C).enabled conn (.serverRecv { recv := .data a.segment, encTmp := a.tmp }) = true := filling
  rw [talk, List.flatMap_cons, offered]
  exact (Machine.offers_fire _ on step).trans (Machine.offers_fire _ opened.draining sent)

/-- A segment after which the connection only waits. -/
theorem talk_quiet {a : Arrival} {conn' : Conn P} (as : List Arrival) (filling : conn.up.filling = true)
    (fired : serverRecvCb C conn { recv := .data a.segment, encTmp := a.tmp } = .ok conn')
    (idle : conn'.up.draining = false) : talk C conn (a :: as) = talk C conn' as := by
  have step : (machine C).fire conn (.serverRecv { recv := .data a.segment, encTmp := a.tmp }) = .ok conn' := fired
  have on : (machine C).enabled conn (.serverRecv { recv := .data a.segment, encTmp := a.tmp }) = true := filling
  rw [talk, List.flatMap_cons, offered]
  exact (Machine.offers_fire _ on step).trans (Machine.offers_skip _ idle)

/-- A segment that stops the connection. -/
theorem talk_stop {a : Arrival} {t : Stop} (as : List Arrival) (filling : conn.up.filling = true)
    (failed : serverRecvCb C conn { recv := .data a.segment, encTmp := a.tmp } = .error t) :
    talk C conn (a :: as) = .error t := by
  have step : (machine C).fire conn (.serverRecv { recv := .data a.segment, encTmp := a.tmp }) = .error t := failed
  have on : (machine C).enabled conn (.serverRecv { recv := .data a.segment, encTmp := a.tmp }) = true := filling
  rw [talk, List.flatMap_cons, offered]
  exact Machine.offers_stop _ on step

/-! ## The payload -/

/-- `ss_gen_hash` where it applies, on a segment in the buffer. -/
theorem genHash_spec (ivLen : iv.length = C.E.ivLen) {buf : Buffer} {seg : Bytes} {ctx : Option (EncCtx P)} (holds : buf.Holds seg)
    (small : seg.length ≤ bufSize) (room : bufSize ≤ buf.array.length) (at_ : EncAt C.E iv (some plain) ctx) :
    ∃ buf', genHash C.E C.auth ctx buf (u32 i) = .ok (buf', u32 (nextChunk C false i)) ∧
      buf'.Holds (framed C iv false i [seg]) ∧ bufSize ≤ buf'.array.length := by
  have cap : bufSize = 2048 := rfl
  unfold genHash framed nextChunk
  cases auth : C.auth with
  | false =>
    refine ⟨buf, rfl, ?_, room⟩
    simp only [Bool.and_false, Bool.false_eq_true, if_false, List.flatten_cons, List.flatten_nil, List.append_nil]
    exact holds
  | true =>
    obtain ⟨c, eq, -, civ, -⟩ := at_
    have ivTake : c.iv.take C.E.ivLen = iv := by rw [civ, List.take_of_length_le (Nat.le_of_eq ivLen)]
    have len := holds.len
    obtain ⟨chunk, hashed, -, fits, grown, bytes⟩ := ssGenHash_spec (E := C.E) c iv (i := i) holds.fits
      (by omega) (show bufSize < 2 ^ 63 by decide) ivTake
    refine ⟨chunk, ?_, ⟨fits, ?_⟩, Nat.le_trans room grown⟩
    · simp only [if_true, eq, deref_some, orCrash_ok, ok_bind, hashed, Bool.not_false, Bool.and_self]
    · rw [bytes, holds.bytes]
      simp only [Bool.not_false, Bool.and_self, if_true, Framing.wire, List.append_nil]

/-- A later segment. What goes to the destination itself is not framed; otherwise a segment is a
chunk, and the keystream goes on where it was. -/
theorem Relaying.next (lawful : P.evp.Lawful) (ivLen : iv.length = C.E.ivLen) (inv : Relaying C iv h direct plain i conn)
    (a : Arrival) (as : List Arrival)
    (limit : InLimit C.E (plain ++ framed C iv direct i [a.segment.bytes]).length) :
    ∃ conn', talk C conn (a :: as) = talk C conn' as ∧
      Relaying C iv h direct (plain ++ framed C iv direct i [a.segment.bytes]) (nextChunk C direct i) conn' := by
  have known := inv.known
  have le := a.segment.le
  have cap : bufSize = 2048 := rfl
  obtain ⟨r, phase, rDirect, connected, counter⟩ := inv.phase
  obtain ⟨buf, received, holds, -, size⟩ := Pipe.receive_spec a.segment inv.room
  have room : bufSize ≤ buf.array.length := by rw [size]; exact inv.room
  cases direct with
  | true =>
    have asIs : framed C iv true i [a.segment.bytes] = a.segment.bytes := by
      simp only [framed, Bool.not_true, Bool.false_and, Bool.false_eq_true, if_false, List.flatten_cons, List.flatten_nil,
        List.append_nil]
    rw [asIs]
    have pushed := Pipe.push_full (p := ({ conn.up with buf } : Pipe).produce) holds
    refine ⟨{ conn with
        up := { ({ conn.up with buf } : Pipe).produce with accepted := conn.up.accepted ++ a.segment.bytes }
        plain := conn.plain ++ buf.bytes }, ?_,
      ⟨known.replies, known.header, ?_, fun no => (by cases no)⟩, ⟨r, phase, rDirect, connected, counter⟩, inv.filling,
      inv.idle, ?_, room⟩
    · refine talk_quiet as inv.filling ?_ inv.idle
      simp only [serverRecvCb, phase, received, ok_bind, relayUp, encryptUp, rDirect, if_true, pure_eq_ok, connected, pushed]
      rfl
    · dsimp only
      rw [known.plain, holds.bytes]
    · dsimp only
      rw [inv.accepted]
      rfl
  | false =>
    have at_ := known.ctx rfl
    obtain ⟨chunk, hashed, chunkHolds, chunkRoom⟩ := genHash_spec (i := i) ivLen holds le room at_
    have short : (framed C iv false i [a.segment.bytes]).length < 2 ^ 61 := by
      have fits := chunkHolds.len
      unfold framed
      split
      · simp only [Framing.wire, List.append_nil, length_otaChunk]
        omega
      · simp only [List.flatten_cons, List.flatten_nil, List.append_nil]
        omega
    obtain ⟨out, ctx, piece, encrypted, outHolds, whole, next, -, -, outRoom⟩ :=
      encryptBuf_spec lawful ivLen a.tmp at_ chunkHolds short
        (by rw [Option.getD_some, ← List.length_append]; exact limit)
    rw [Option.getD_some] at whole next
    have pushed := Pipe.push_full (p := ({ conn.up with buf := out } : Pipe).produce) outHolds
    refine ⟨{ conn with
        phase := .stream { r with counter := u32 (nextChunk C false i) }
        up := { ({ conn.up with buf := out } : Pipe).produce with accepted := conn.up.accepted ++ piece }
        eCtx := ctx, plain := conn.plain ++ chunk.bytes }, ?_,
      ⟨known.replies, known.header, ?_, fun _ => next⟩, ⟨_, rfl, rDirect, connected, rfl⟩, inv.filling,
      inv.idle, ?_, outRoom⟩
    · refine talk_quiet as inv.filling ?_ inv.idle
      simp only [serverRecvCb, phase, received, ok_bind, relayUp, encryptUp, rDirect, Bool.false_eq_true, if_false, connected,
        Bool.true_and, counter, hashed, encrypted, if_true, pure_eq_ok, pushed]
      rfl
    · dsimp only
      rw [known.plain, chunkHolds.bytes]
    · dsimp only
      rw [inv.accepted]
      exact whole

/-- The segments of a list of arrivals. -/
def segments (arrivals : List Arrival) : List Bytes := arrivals.map fun a => a.segment.bytes

/-- All later segments. -/
theorem Relaying.run (lawful : P.evp.Lawful) (ivLen : iv.length = C.E.ivLen) (as : List Arrival)
    (inv : Relaying C iv h direct plain i conn)
    (limit : InLimit C.E (plain ++ framed C iv direct i (segments as)).length) :
    ∃ conn' j, talk C conn as = .ok conn' ∧
      Relaying C iv h direct (plain ++ framed C iv direct i (segments as)) j conn' := by
  induction as generalizing conn plain i with
  | nil =>
    refine ⟨conn, i, rfl, ?_⟩
    rw [segments, List.map_nil, framed_nil, List.append_nil]
    exact inv
  | cons a as ih =>
    have split : segments (a :: as) = a.segment.bytes :: segments as := rfl
    rw [split, framed_cons, ← List.append_assoc] at limit ⊢
    obtain ⟨conn', step, inv'⟩ := inv.next lawful ivLen a as
      (InLimit.mono limit (by simp only [List.length_append]; omega))
    rw [step]
    exact ih inv' limit

/-! ## The greeting -/

/-- A method selection message. -/
def greeting (methods : Bytes) : Bytes := [5, UInt8.ofNat methods.length] ++ methods

/-- The first segment is in the buffer, and the greeting is answered. -/
def greeted (C : Config P) (iv : Bytes) (buf : Buffer) : Conn P :=
  { acceptCb C iv with phase := .request, down := { (acceptCb C iv).down with buf }, replies := [5, 0] }

theorem greeted_before (C : Config P) (iv : Bytes) (method : C.E.method ≠ .table) {buf : Buffer}
    (room : buf.array.length = bufSize) : Before C iv [5, 0] (greeted C iv buf) where
  filling := rfl
  idle := rfl
  accepted := rfl
  plain := rfl
  ctx := if_neg method
  room := room
  replies := rfl

variable {methods : Bytes}

/-- A first segment that ends with the greeting, or inside it: stage 1 begins, and the
rest of the greeting is not waited for. -/
theorem talk_greeting (C : Config P) (iv : Bytes) (a : Arrival) (as : List Arrival) {more : Bytes} (count : methods.length < 256)
    (cut : a.segment.bytes <+: greeting methods ++ more) (short : a.segment.bytes.length ≤ methods.length + 2) :
    ∃ buf, talk C (acceptCb C iv) (a :: as) = talk C (greeted C iv buf) as ∧ buf.array.length = bufSize := by
  have room : bufSize ≤ (acceptCb C iv).down.buf.array.length := Nat.le_of_eq (length_balloc _ _).symm
  have alloc : (acceptCb C iv).down.buf.array.length = bufSize := length_balloc _ _
  obtain ⟨buf, received, holds, -, size⟩ := Pipe.receive_spec a.segment room
  have len := holds.len
  have pos := a.segment.pos
  have cap : bufSize = 2048 := rfl
  have nmethods : (UInt8.ofNat methods.length).toNat = methods.length := by
    rw [UInt8.toNat_ofNat']
    exact Nat.mod_eq_of_lt count
  -- the number of methods is read wherever the segment ends
  have waits : ∃ x y, buf.byte 1 = .ok x ∧ buf.byte 0 = .ok y ∧ buf.len ≤ x.toNat + 2 := by
    obtain ⟨behind, whole⟩ := cut
    match bytes : a.segment.bytes with
    | [] =>
      rw [bytes] at pos
      cases pos
    | [y] =>
      rw [bytes] at holds len
      refine ⟨buf.array[1], y, ?_, holds.byte [] y [], ?_⟩
      · rw [Buffer.byte, List.getElem?_eq_getElem]
      · rw [len, List.length_singleton]
        omega
    | y :: x :: rest =>
      rw [bytes] at holds whole short
      simp only [greeting, List.cons_append, List.nil_append, List.cons.injEq] at whole
      refine ⟨x, y, holds.byte [y] x rest, holds.byte [] y (x :: rest), ?_⟩
      rw [whole.2.1, nmethods, len, bytes]
      exact short
  obtain ⟨x, y, second, first, most⟩ := waits
  refine ⟨buf, ?_, size.trans alloc⟩
  refine talk_quiet as rfl ?_ rfl
  have start : (acceptCb C iv).phase = .handshake := rfl
  simp only [serverRecvCb, start, received, ok_bind, methodSelect, second, first, orCrash_ok, pure_eq_ok]
  rw [if_neg (by omega)]
  rfl

/-- A first segment that goes beyond the greeting: what is behind it is the request. -/
theorem serverRecvCb_greeting (C : Config P) (iv : Bytes) (a : Arrival) {rest : Bytes} (count : methods.length < 256)
    (bytes : a.segment.bytes = greeting methods ++ rest) (some_ : 0 < rest.length) :
    ∃ buf, serverRecvCb C (acceptCb C iv) { recv := .data a.segment, encTmp := a.tmp } =
        request C (greeted C iv buf) { recv := .data a.segment, encTmp := a.tmp } ∧
      buf.array.length = bufSize ∧ buf.Holds rest := by
  have room : bufSize ≤ (acceptCb C iv).down.buf.array.length := Nat.le_of_eq (length_balloc _ _).symm
  have alloc : (acceptCb C iv).down.buf.array.length = bufSize := length_balloc _ _
  obtain ⟨buf, received, holds, -, size⟩ := Pipe.receive_spec a.segment room
  rw [bytes] at holds
  have len := holds.len
  have inside := holds.room
  have nmethods : (UInt8.ofNat methods.length).toNat = methods.length := by
    rw [UInt8.toNat_ofNat']
    exact Nat.mod_eq_of_lt count
  have whole : (greeting methods).length = methods.length + 2 := by
    rw [greeting, List.length_append]
    exact Nat.add_comm _ _
  rw [List.length_append, whole] at len inside
  have second : buf.byte 1 = .ok (UInt8.ofNat methods.length) := holds.byte [5] _ (methods ++ rest)
  have first : buf.byte 0 = .ok 5 := holds.byte [] 5 (UInt8.ofNat methods.length :: (methods ++ rest))
  obtain ⟨shifted, moved, rest', array, idx⟩ := holds.shift
  have target : buf.memmove 0 (methods.length + 2) rest.length = .ok { shifted with len := buf.len } := by
    rw [whole] at moved
    obtain ⟨arr, mv, eq⟩ := bind_eq_ok.mp moved
    cases eq
    rw [Buffer.memmove, mv]
    rfl
  refine ⟨shifted, ?_, ?_, rest'⟩
  · have start : (acceptCb C iv).phase = .handshake := rfl
    have left : buf.len - (methods.length + 2) = rest.length := by omega
    have same : { shifted with len := rest.length } = shifted := by rw [← rest'.len]
    simp only [serverRecvCb, start, received, ok_bind, methodSelect, second, first, orCrash_ok, nmethods]
    rw [if_pos ⟨trivial, by omega⟩, left, target]
    simp only [orCrash_ok, ok_bind, pure_eq_ok, if_true, left, same]
    rfl
  · rw [array, length_splice (by omega), size, alloc]

end

end Shadowsocks.Local
