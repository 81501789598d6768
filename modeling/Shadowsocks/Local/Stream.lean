import Shadowsocks.Local.Entry
import Shadowsocks.Local.Handshake

/-!
# What ss-local makes of a stream, in every run

Once the request has been read, the callbacks of the client, of the remote and of the timers come
in any order, and each socket takes as much as it likes. Whatever they do, all that is produced for
the remote is one ciphertext: of the header, of what came with the request and of the later segments
as they were read, each in a chunk of its own if the client authenticates.
-/

namespace Shadowsocks.Local
set_option autoImplicit false
open Lib

/-- How a relay begins: what the client has been answered before the reply, what is encrypted first, and the
number of the first chunk behind it. -/
structure Opening where
  said : Bytes
  first : Bytes
  start : Nat

section
variable {P : Platform} {C : Config P} {iv said : Bytes} {o : Opening} {h : Header} {direct : Bool} {conn conn' mid : Conn P} {remote : Remote}

/-! ## Chunk numbers -/

/-- The number of the next chunk, if the first segment begins chunk number `i`. -/
def chunkNo (C : Config P) (direct : Bool) (i : Nat) (segs : List Bytes) : Nat := if !direct && C.auth then i + segs.length else i

theorem framed_append (C : Config P) (iv : Bytes) (direct : Bool) (i : Nat) (segs more : List Bytes) :
    framed C iv direct i (segs ++ more) = framed C iv direct i segs ++ framed C iv direct (chunkNo C direct i segs) more := by
  induction segs generalizing i with
  | nil => simp [framed_nil, chunkNo]
  | cons seg segs ih =>
    rw [List.cons_append, framed_cons, ih, framed_cons C iv direct i seg segs, List.append_assoc, nextChunk, chunkNo, chunkNo]
    split
    · rw [List.length_cons, Nat.add_assoc, Nat.add_comm 1]
    · rfl

theorem nextChunk_chunkNo (C : Config P) (direct : Bool) (i : Nat) (segs : List Bytes) (seg : Bytes) :
    nextChunk C direct (chunkNo C direct i segs) = chunkNo C direct i (segs ++ [seg]) := by
  unfold nextChunk chunkNo
  split
  · rw [List.length_append, List.length_singleton, Nat.add_assoc]
  · rfl

/-- What is sent first: of a chunk that comes with the request the end is cut off. -/
def firstSent (C : Config P) (iv : Bytes) (h : Header) (direct : Bool) (rest : Bytes) : Bytes :=
  if direct then rest else head C.E iv h C.auth C.auth ++ if C.auth then (otaChunk P iv 0 rest).take rest.length else rest

def opening (C : Config P) (iv : Bytes) (h : Header) (direct : Bool) (said rest : Bytes) : Opening where
  said := said
  first := firstSent C iv h direct rest
  start := if !direct && C.auth && !rest.isEmpty then 1 else 0

/-! ## What opening the remote leaves alone -/

/-- The same plain text and the same stream, and the remote is connected if the client is read. -/
structure Steady (conn conn' : Conn P) : Prop where
  header : conn'.header = conn.header
  replies : conn'.replies = conn.replies
  plain : conn'.plain = conn.plain
  eCtx : conn'.eCtx = conn.eCtx
  produced : conn'.up.produced = conn.up.produced
  room : conn'.up.buf.array.length = conn.up.buf.array.length
  phase : ∀ r, conn.phase = .stream r → ∃ r', conn'.phase = .stream r' ∧ r'.direct = r.direct ∧ r'.counter = r.counter
  connected : conn'.up.filling = true → conn'.connected = true

theorem drain_room {p p' : Pipe} {r : SendResult} (h : p.drain r = .ok p') : p'.buf.array.length = p.buf.array.length := by
  obtain ⟨-, ⟨-, rfl⟩ | ⟨s, -, -, rfl⟩ | ⟨-, rfl⟩⟩ := Pipe.drain_cases h
  · rfl
  · rfl
  · rfl

theorem push_room {p p' : Pipe} {r : SendResult} (h : p.push r = .ok p') : p'.buf.array.length = p.buf.array.length := by
  obtain ⟨-, rfl⟩ | ⟨s, -, -, rfl⟩ | ⟨-, rfl⟩ := Pipe.push_cases h
  · rfl
  · rfl
  · rfl

theorem Steady.of_phase {r r' : Remote} (at_ : conn.phase = .stream r) (at' : conn'.phase = .stream r') (same : conn' = { conn with
    phase := conn'.phase, up := conn'.up, down := conn'.down, dCtx := conn'.dCtx }) (direct : r'.direct = r.direct) (counter : r'.counter = r.counter)
    (produced : conn'.up.produced = conn.up.produced) (room : conn'.up.buf.array.length = conn.up.buf.array.length)
    (connected : conn'.up.filling = true → r'.connected = true) : Steady conn conn' := by
  constructor
  · rw [same]
  · rw [same]
  · rw [same]
  · rw [same]
  · exact produced
  · exact room
  · intro s known
    rw [at_] at known
    cases known
    exact ⟨r', at', direct, counter⟩
  · rw [Conn.connected_of at']
    exact connected

theorem remoteSendCb_steady {peer : Bool} {send : SendResult} (at_ : conn.phase = .stream remote)
    (done : remoteSendCb conn remote peer send = .ok conn') : Steady conn conn' := by
  unfold remoteSendCb at done
  split at done
  · rename_i on
    obtain ⟨up, drained, done⟩ := bind_eq_ok.mp done
    cases done
    exact .of_phase at_ at_ rfl rfl rfl (Pipe.drain_grows drained).1 (drain_room drained) fun _ => on
  split at done
  · dsimp only at done
    split at done
    · cases done
      exact .of_phase at_ rfl rfl rfl rfl rfl rfl fun _ => rfl
    · obtain ⟨up, drained, done⟩ := bind_eq_ok.mp done
      cases done
      exact .of_phase at_ rfl rfl rfl rfl (Pipe.drain_grows drained).1 (drain_room drained) fun _ => rfl
  · cases done

theorem openRemote_steady {e : ServerRecv} (at_ : conn.phase = .stream remote) (opened : openRemote C conn remote e = .ok conn') :
    Steady conn conn' := by
  unfold openRemote at opened
  split at opened
  · cases opened
  dsimp only at opened
  split at opened
  · split at opened
    · cases opened
    · have still : ({ conn with up := { conn.up with buf := { conn.up.buf with idx := 0 } } } : Conn P).phase = .stream remote := at_
      have steady := remoteSendCb_steady still opened
      exact ⟨steady.header, steady.replies, steady.plain, steady.eCtx, steady.produced, steady.room, steady.phase, steady.connected⟩
    · cases opened
      exact .of_phase at_ rfl rfl rfl rfl rfl rfl fun no => Bool.noConfusion no
  · split at opened
    · cases opened
    · cases opened
      exact .of_phase at_ at_ rfl rfl rfl rfl rfl fun no => Bool.noConfusion no
    · obtain ⟨data, -, opened⟩ := bind_eq_ok.mp opened
      cases opened
      exact .of_phase at_ rfl rfl rfl rfl rfl rfl fun _ => rfl

/-! ## The relay -/

/-- The relay has begun with this header, and `first` and then `segs` have been encrypted. -/
structure Encrypted (C : Config P) (iv : Bytes) (h : Header) (direct : Bool) (o : Opening) (segs : List Bytes) (conn : Conn P) :
    Prop where
  header : conn.header = some (h.encode false)
  replies : conn.replies = o.said ++ fakeReply
  plain : conn.plain = o.first ++ framed C iv direct o.start segs
  ctx : direct = false → EncAt C.E iv (some conn.plain) conn.eCtx
  produced : conn.up.produced = onWire C iv direct conn.plain
  room : bufSize ≤ conn.up.buf.array.length
  phase : ∃ r, conn.phase = .stream r ∧ r.direct = direct ∧ r.counter = u32 (chunkNo C direct o.start segs)

/-- Between callbacks the client is read only if the remote is connected. -/
structure Streaming (C : Config P) (iv : Bytes) (h : Header) (direct : Bool) (o : Opening) (segs : List Bytes) (conn : Conn P) :
    Prop extends Encrypted C iv h direct o segs conn where
  connected : conn.up.filling = true → conn.connected = true

variable {segs : List Bytes}

theorem Encrypted.steady (encrypted : Encrypted C iv h direct o segs conn) (steady : Steady conn conn') :
    Streaming C iv h direct o segs conn' := by
  obtain ⟨r, at_, isDirect, counter⟩ := encrypted.phase
  obtain ⟨r', at', direct', counter'⟩ := steady.phase r at_
  constructor
  · constructor
    · exact steady.header.trans encrypted.header
    · exact steady.replies.trans encrypted.replies
    · exact steady.plain.trans encrypted.plain
    · rw [steady.plain, steady.eCtx]
      exact encrypted.ctx
    · rw [steady.plain, steady.produced]
      exact encrypted.produced
    · rw [steady.room]
      exact encrypted.room
    · exact ⟨r', at', direct'.trans isDirect, counter'.trans counter⟩
  · exact steady.connected

/-- A segment of payload becomes a chunk, and is encrypted. -/
theorem encryptUp_encrypted (lawful : P.evp.Lawful) (ivLen : iv.length = C.E.ivLen) (streaming : Encrypted C iv h direct o segs conn)
    (at_ : conn.phase = .stream remote) (connected : remote.connected = true) {buf : Buffer} {seg : Bytes} (holds : buf.Holds seg)
    (small : seg.length ≤ bufSize) (room : bufSize ≤ buf.array.length) (tmp : Buffer)
    (limit : InLimit C.E (o.first ++ framed C iv direct o.start (segs ++ [seg])).length) :
    ∃ mid r, encryptUp C { conn with up := { conn.up with buf } } remote tmp = .ok (r, mid) ∧ r.connected = true ∧
      Encrypted C iv h direct o (segs ++ [seg]) mid := by
  obtain ⟨r, at', isDirect, counter⟩ := streaming.phase
  rw [at_] at at'
  cases at'
  have cap : bufSize = 2048 := rfl
  unfold encryptUp
  cases direct with
  | true =>
    have asIs : framed C iv true (chunkNo C true o.start segs) [seg] = seg := by simp [framed]
    have plain : conn.plain ++ buf.bytes = o.first ++ framed C iv true o.start (segs ++ [seg]) := by
      rw [streaming.plain, holds.bytes, framed_append, asIs, List.append_assoc]
    have uncounted : chunkNo C true o.start (segs ++ [seg]) = chunkNo C true o.start segs := rfl
    rw [if_pos isDirect]
    refine ⟨_, remote, rfl, connected, streaming.header, streaming.replies, plain, fun no => Bool.noConfusion no, ?_, room,
      remote, at_, isDirect, ?_⟩
    · dsimp only [Pipe.produce]
      rw [streaming.produced, onWire, if_pos rfl, onWire, if_pos rfl]
    · rw [uncounted]
      exact counter
  | false =>
    have ctx := streaming.ctx rfl
    obtain ⟨chunk, hashed, chunkHolds, chunkRoom⟩ := genHash_spec (i := chunkNo C false o.start segs) ivLen holds small room ctx
    have short : (framed C iv false (chunkNo C false o.start segs) [seg]).length < 2 ^ 61 := by
      have le := length_framed_le C iv false (chunkNo C false o.start segs) [seg]
      simp only [List.flatten_cons, List.flatten_nil, List.append_nil, List.length_singleton] at le
      omega
    have plain : conn.plain ++ framed C iv false (chunkNo C false o.start segs) [seg] = o.first ++ framed C iv false o.start (segs ++ [seg]) := by
      rw [streaming.plain, framed_append, List.append_assoc]
    obtain ⟨out, ctx', piece, encrypted, outHolds, whole, next, -, -, outRoom⟩ :=
      encryptBuf_spec lawful ivLen tmp ctx chunkHolds short (by rw [Option.getD_some, ← List.length_append, plain]; exact limit)
    rw [Option.getD_some] at whole next
    rw [if_neg (by simp [isDirect]), connected, Bool.true_and]
    dsimp only
    rw [counter, hashed]
    simp only [ok_bind, encrypted]
    refine ⟨_, _, rfl, rfl, streaming.header, streaming.replies, ?_, fun _ => ?_, ?_, outRoom, _, rfl, isDirect, ?_⟩
    · rw [chunkHolds.bytes]
      exact plain
    · rw [chunkHolds.bytes]
      exact next
    · dsimp only [Pipe.produce]
      rw [streaming.produced, outHolds.bytes, chunkHolds.bytes, onWire, if_neg (by simp), onWire, if_neg (by simp)]
      exact whole
    · rw [nextChunk_chunkNo]

/-- The payload that comes with an event. -/
def Event.payload : Event → List Bytes
  | .serverRecv e =>
    match e.recv with
    | .data segment => [segment.bytes]
    | _ => []
  | _ => []

theorem length_payload {e : Event} {seg : Bytes} (mem : seg ∈ e.payload) : 0 < seg.length ∧ seg.length ≤ bufSize := by
  unfold Event.payload at mem
  split at mem
  · split at mem
    · rename_i segment _
      rw [List.mem_singleton.mp mem]
      exact ⟨segment.pos, segment.le⟩
    · cases mem
  · cases mem

theorem serverRecvCb_streaming (lawful : P.evp.Lawful) (ivLen : iv.length = C.E.ivLen)
    (streaming : Streaming C iv h direct o segs conn) (filling : conn.up.filling = true) {e : ServerRecv}
    (limit : InLimit C.E (o.first ++ framed C iv direct o.start (segs ++ (Event.serverRecv e).payload)).length)
    (done : serverRecvCb C conn e = .ok conn') : Streaming C iv h direct o (segs ++ (Event.serverRecv e).payload) conn' := by
  obtain ⟨r, at_, isDirect, counter⟩ := streaming.phase
  have connected := streaming.connected filling
  rw [Conn.connected_of at_] at connected
  cases arrived : e.recv with
  | eof => simp only [serverRecvCb, arrived] at done; cases done
  | failed => simp only [serverRecvCb, arrived] at done; cases done
  | wouldBlock =>
    simp only [serverRecvCb, arrived] at done
    cases done
    simpa only [Event.payload, arrived, List.append_nil] using streaming
  | data segment =>
    simp only [Event.payload, arrived] at limit ⊢
    obtain ⟨buf, received, holds, -, size⟩ := Pipe.receive_spec segment streaming.room
    have room : bufSize ≤ buf.array.length := by rw [size]; exact streaming.room
    obtain ⟨mid, r', encrypted, on, after⟩ :=
      encryptUp_encrypted lawful ivLen streaming.toEncrypted at_ connected holds segment.le room e.encTmp limit
    have relayed : relayUp C { conn with up := { conn.up with buf } } r e = .ok conn' := by
      unfold serverRecvCb at done
      rw [arrived] at done
      dsimp only at done
      split at done
      · rename_i r' at'
        rw [at_] at at'
        cases at'
        rw [received, ok_bind] at done
        exact done
      · rename_i at'
        rw [at_] at at'
        cases at'
      · rename_i at'
        rw [at_] at at'
        cases at'
    rw [relayUp, encrypted, ok_bind] at relayed
    dsimp only at relayed
    rw [on, if_pos rfl] at relayed
    obtain ⟨up, pushed, relayed⟩ := bind_eq_ok.mp relayed
    cases relayed
    have still : ({ conn with up := { conn.up with buf } } : Conn P).phase = .stream r := at_
    have at' := (encryptUp_cases still encrypted).1
    refine after.steady (.of_phase at' at' rfl rfl rfl (Pipe.push_grows pushed).1 (push_room pushed) fun _ => on)

/-- Every callback of the relay. -/
theorem fire_streaming (lawful : P.evp.Lawful) (ivLen : iv.length = C.E.ivLen) (streaming : Streaming C iv h direct o segs conn)
    {e : Event} (on : enabled conn e = true) (limit : InLimit C.E (o.first ++ framed C iv direct o.start (segs ++ e.payload)).length)
    (fired : fire C conn e = .ok conn') : Streaming C iv h direct o (segs ++ e.payload) conn' := by
  obtain ⟨r, at_, isDirect, counter⟩ := streaming.phase
  have connected := streaming.connected
  rw [Conn.connected_of at_] at connected
  have here : conn.phase.remote? = some r := by rw [at_]; rfl
  cases e with
  | serverRecv e => exact serverRecvCb_streaming lawful ivLen streaming on limit fired
  | serverSend send =>
    obtain ⟨down, -, fired⟩ := bind_eq_ok.mp fired
    cases fired
    simp only [Event.payload, List.append_nil]
    exact streaming.steady (.of_phase at_ at_ rfl rfl rfl rfl rfl connected)
  | remoteSend peer send =>
    obtain ⟨r', found, fired⟩ := bind_eq_ok.mp fired
    rw [orCrash_eq_ok, deref_eq_ok, here, Option.some_inj] at found
    subst found
    simpa only [Event.payload, List.append_nil] using streaming.steady (remoteSendCb_steady at_ fired)
  | remoteRecv e =>
    obtain ⟨r', found, fired⟩ := bind_eq_ok.mp fired
    rw [orCrash_eq_ok, deref_eq_ok, here, Option.some_inj] at found
    subst found
    have steady : Steady conn conn' := by
      unfold remoteRecvCb at fired
      dsimp only at fired
      split at fired
      · cases fired
      · cases fired
      · cases fired
        exact .of_phase at_ rfl rfl rfl rfl rfl rfl connected
      split at fired
      · obtain ⟨down, -, fired⟩ := bind_eq_ok.mp fired
        obtain ⟨down', -, fired⟩ := bind_eq_ok.mp fired
        cases fired
        exact .of_phase at_ rfl rfl rfl rfl rfl rfl connected
      · obtain ⟨relayed, -, fired⟩ := bind_eq_ok.mp fired
        cases fired
        exact .of_phase at_ rfl rfl rfl rfl rfl rfl connected
    simpa only [Event.payload, List.append_nil] using streaming.steady steady
  | remoteTimeout => cases fired

/-! ## The request -/

/-- The client has been greeted, and nothing has been done for it yet. -/
structure Greeted (C : Config P) (iv said : Bytes) (conn : Conn P) : Prop where
  unopened : Unopened C iv conn
  replies : conn.replies = said
  plain : conn.plain = []
  produced : conn.up.produced = []
  idle : conn.up.draining = false
  quiet : conn.down.draining = false
  unread : conn.down.filling = false
  undelivered : conn.down.accepted = []

/-- What `remote->buf` was filled with is encrypted, with its header. -/
theorem encryptUp_first (lawful : P.evp.Lawful) (ivLen : iv.length = C.E.ivLen) (at_ : conn.phase = .stream remote)
    (off : remote.connected = false) (isDirect : remote.direct = direct) (counter : remote.counter = u32 o.start)
    (fresh : conn.eCtx = some (encCtxInit C.E true iv)) (header : conn.header = some (h.encode false))
    (replies : conn.replies = o.said ++ fakeReply) (plain : conn.plain = []) (produced : conn.up.produced = [])
    (holds : conn.up.buf.Holds o.first) (room : bufSize ≤ conn.up.buf.array.length) (small : o.first.length < 2 ^ 38) (tmp : Buffer) :
    ∃ next r, encryptUp C conn remote tmp = .ok (r, next) ∧ r.connected = false ∧ next.phase = .stream r ∧
      Encrypted C iv h direct o [] next := by
  have all : conn.plain ++ conn.up.buf.bytes = o.first ++ framed C iv direct o.start [] := by
    rw [plain, holds.bytes, framed_nil, List.append_nil, List.nil_append]
  have number : chunkNo C direct o.start [] = o.start := by
    unfold chunkNo
    split <;> rfl
  unfold encryptUp
  cases direct with
  | true =>
    rw [if_pos isDirect]
    refine ⟨_, _, rfl, off, at_, header, replies, all, fun no => Bool.noConfusion no, ?_, room, _, at_, isDirect, by rw [number, counter]⟩
    dsimp only [Pipe.produce]
    rw [produced, plain, onWire, if_pos rfl]
  | false =>
    have limit : 2 ^ 38 ≤ C.E.method.streamLimit := by cases C.E.method <;> decide
    have ctx : EncAt C.E iv none conn.eCtx := fresh
    obtain ⟨out, ctx', piece, encrypted, outHolds, whole, next, -, -, outRoom⟩ := encryptBuf_spec lawful ivLen tmp ctx holds
      (by omega) (fun _ => by rw [Option.getD_none, List.length_nil]; omega)
    rw [Option.getD_none, List.nil_append] at whole next
    have wire : piece = ciphertext C.E iv o.first := whole
    rw [if_neg (by simp [isDirect]), off, Bool.false_and]
    simp only [genHash, Bool.false_eq_true, if_false, pure_eq_ok, ok_bind, encrypted]
    refine ⟨_, _, rfl, rfl, rfl, header, replies, all, fun _ => ?_, ?_, outRoom, _, rfl, isDirect, by rw [number, counter]⟩
    · rw [all, framed_nil, List.append_nil]
      exact next
    · dsimp only [Pipe.produce]
      rw [produced, all, framed_nil, List.append_nil, List.nil_append, outHolds.bytes, wire, onWire, if_neg (by simp)]

theorem createRemote_direct {e : ServerRecv} (created : createRemote direct e = .ok remote) : remote.direct = direct := by
  unfold createRemote at created
  split at created
  · rename_i yes
    split at created
    · split at created <;> cases created
      exact yes.symm
    · cases created
  · rename_i no
    split at created <;> cases created
    exact (Bool.eq_false_iff.mpr no).symm

/-- What `remote->buf` is filled with, if it can be. -/
theorem fillRemote_filled (said : Bytes) (ivLen : iv.length = C.E.ivLen) (valid : h.Valid) {ctx : Option (EncCtx P)}
    (fresh : ctx = some (encCtxInit C.E true iv)) {abuf buf rbuf sbuf : Buffer} {rest : Bytes} {counter : Nat} (header : abuf.Holds (h.encode false))
    (behind : buf.Holds rest) (small : rest.length ≤ bufSize) (room : bufSize ≤ buf.array.length)
    (filled : fillRemote C ctx abuf buf direct = .ok (rbuf, sbuf, counter)) :
    rbuf.Holds (firstSent C iv h direct rest) ∧ counter = u32 (opening C iv h direct said rest).start ∧
      bufSize ≤ rbuf.array.length := by
  cases direct with
  | true =>
    obtain ⟨rbuf', filled', first, rbufRoom⟩ := fillRemote_direct C ctx abuf behind small
    rw [filled'] at filled
    cases filled
    exact ⟨first, rfl, rbufRoom⟩
  | false =>
    by_cases clean : C.auth = false ∨ rest = []
    · obtain ⟨rbuf', filled', first, rbufRoom⟩ := fillRemote_proxied ivLen valid fresh behind small header clean
      rw [filled'] at filled
      cases filled
      refine ⟨?_, ?_, rbufRoom⟩
      · rcases clean with off | rfl
        · simpa [firstSent, off] using first
        · simpa [firstSent] using first
      · rcases clean with off | rfl
        · simp [opening, off]
        · simp [opening]
    · simp only [not_or, Bool.not_eq_false] at clean
      have some_ : 0 < rest.length := List.length_pos_iff.mpr clean.2
      by_cases fit : (head C.E iv h true true).length + rest.length + authBytes ≤ bufSize
      · obtain ⟨rbuf', sbuf', filled', first, rbufRoom, -⟩ := fillRemote_truncates ivLen valid fresh behind header room clean.1 some_ fit
        rw [filled'] at filled
        cases filled
        refine ⟨?_, ?_, rbufRoom⟩
        · simpa [firstSent, clean.1] using first
        · simp [opening, clean.1, clean.2]
      · rw [fillRemote_overflows ivLen valid fresh behind small header room clean.1 some_ fit] at filled
        cases filled

/-- The request begins the relay. -/
theorem request_streaming (lawful : P.evp.Lawful) (method : C.E.method ≠ .table) (ivLen : iv.length = C.E.ivLen) (valid : h.Valid)
    (greeted : Greeted C iv said conn) {a c : UInt8} {rest : Bytes} (holds : conn.down.buf.Holds ([a, 1, c] ++ h.encode false ++ rest))
    {e : ServerRecv} (done : request C conn e = .ok conn') :
    Streaming C iv h (choice C h rest) (opening C iv h (choice C h rest) said rest) [] conn' := by
  have cap : bufSize = 2048 := rfl
  have unopened := greeted.unopened
  have room := holds.room
  have short := length_head_le C.E iv valid C.auth C.auth
  rw [List.length_append, unopened.room] at room
  have fresh : conn.eCtx = some (encCtxInit C.E true iv) := by rw [unopened.ctx, newContext, if_neg method]
  obtain ⟨abuf, buf, answered, header, behind, size⟩ := request_whole (C := C) valid holds e
  have bufRoom : bufSize ≤ buf.array.length := Nat.le_of_eq (size.trans unopened.room).symm
  rw [answered] at done
  obtain ⟨remote, created, done⟩ := bind_eq_ok.mp done
  have off := createRemote_connected created
  have isDirect := createRemote_direct created
  obtain ⟨⟨rbuf, sbuf, counter⟩, filled, done⟩ := bind_eq_ok.mp done
  obtain ⟨first, number, rbufRoom⟩ := fillRemote_filled said ivLen valid fresh header behind (by omega) bufRoom filled
  obtain ⟨sbuf', -, done⟩ := bind_eq_ok.mp done
  have small : (firstSent C iv h (choice C h rest) rest).length < 2 ^ 38 := by
    have tagged := List.length_take_le rest.length (otaChunk P iv 0 rest)
    unfold firstSent
    split
    · omega
    · rw [List.length_append]
      split <;> omega
  split at done
  · split at done
    · cases done
    · let mid : Conn P := { conn with
        phase := .stream { remote with counter }, up := { conn.up with buf := rbuf }, down := { conn.down with buf := sbuf' }
        replies := conn.replies ++ fakeReply, header := some abuf.bytes }
      have at_ : mid.phase = .stream { remote with counter } := rfl
      have relayed : relayUp C mid { remote with counter } e = .ok conn' := done
      obtain ⟨next, r, encrypted, still, at', all⟩ := encryptUp_first (h := h) (o := opening C iv h (choice C h rest) said rest)
        lawful ivLen at_ off isDirect number fresh (congrArg some header.bytes)
        (congrArg (· ++ fakeReply) greeted.replies) greeted.plain greeted.produced first rbufRoom small e.encTmp
      rw [relayUp, encrypted, ok_bind] at relayed
      dsimp only at relayed
      rw [still, if_neg Bool.false_ne_true] at relayed
      exact all.steady (openRemote_steady at' relayed)
  · cases done

/-! ## Before the request -/

/-- What stage 0 answers, if the connection is in it. -/
def answers (phase : Phase) (e : ServerRecv) : Bytes :=
  match phase with
  | .handshake => delivered e.greeting [5, 0]
  | _ => []

/-- A segment before the relay: it is taken for a greeting alone, or there is a request in it. A
greeting may come alone, or with the request behind it, which is then moved to the front of the
buffer. -/
theorem serverRecvCb_early (greeted : Greeted C iv said conn) (early : conn.phase.remote? = none) {e : ServerRecv} {segment : Segment}
    (arrived : e.recv = .data segment) :
    ∃ mid, Greeted C iv (said ++ answers conn.phase e) mid ∧
      ((requestIn conn segment = none ∧ conn.phase = .handshake ∧ mid.phase = .request ∧ serverRecvCb C conn e = .ok mid) ∨
        (requestIn conn segment = some mid.down.buf ∧ serverRecvCb C conn e = request C mid e)) := by
  have unopened := greeted.unopened
  have received := Pipe.receive_eq (p := conn.down) segment (Nat.le_of_eq unopened.room.symm)
  obtain ⟨buf, received', holds, -, size⟩ := Pipe.receive_spec (p := conn.down) segment (Nat.le_of_eq unopened.room.symm)
  rw [unopened.room] at size
  have replied : conn.replies = said := greeted.replies
  cases phase : conn.phase with
  | stream r =>
    rw [phase] at early
    cases early
  | request =>
    have twice : splice (splice conn.down.buf.array 0 segment.bytes) 0 segment.bytes = splice conn.down.buf.array 0 segment.bytes :=
      splice_splice_same rfl (by rw [unopened.room, Nat.zero_add]; exact segment.le)
    rw [received] at received'
    cases received'
    refine ⟨{ conn with down := { conn.down with buf := { conn.down.buf with
      array := splice conn.down.buf.array 0 segment.bytes, len := segment.bytes.length } } }, ?_, .inr ⟨?_, ?_⟩⟩
    · exact ⟨⟨unopened.ctx, size, unopened.header⟩, by simp [answers, replied], greeted.plain, greeted.produced, greeted.idle,
        greeted.quiet, greeted.unread, greeted.undelivered⟩
    · simp [requestIn, requestPart, phase, twice]
    · simp only [serverRecvCb, arrived, phase, received, ok_bind]
      rfl
  | handshake =>
    cases part : requestPart .handshake segment.bytes with
    | none =>
      have waits : methodSelect { conn with phase := .handshake, down := { conn.down with buf } } e = .ok (false, { conn with
          phase := .request, down := { conn.down with buf }, replies := conn.replies ++ delivered e.greeting [5, 0] }) :=
        methodSelect_waits size holds segment.pos part e
      refine ⟨{ conn with
        phase := .request, down := { conn.down with buf }, replies := conn.replies ++ delivered e.greeting [5, 0] },
        ⟨⟨unopened.ctx, size, unopened.header⟩, by simp [answers, replied], greeted.plain, greeted.produced, greeted.idle,
        greeted.quiet, greeted.unread, greeted.undelivered⟩,
        .inl ⟨by simp [requestIn, phase, part], rfl, rfl, ?_⟩⟩
      simp only [serverRecvCb, arrived, phase, received', ok_bind]
      rw [waits, ok_bind]
      rfl
    | some bytes =>
      obtain ⟨n, rest, whole, more, rfl⟩ := requestPart_handshake part
      rw [received] at received'
      cases received'
      have found : requestIn conn segment = some { conn.down.buf with
          len := (rest.drop n.toNat).length
          array := splice (splice conn.down.buf.array 0 segment.bytes) 0 (rest.drop n.toNat) } := by
        simp [requestIn, phase, part]
      obtain ⟨-, -, -, room⟩ := requestIn_holds unopened.room found
      have selected : methodSelect { conn with
          phase := .handshake
          down := { conn.down with buf := { conn.down.buf with
            array := splice conn.down.buf.array 0 segment.bytes, len := segment.bytes.length } } } e = .ok (true, { conn with
          phase := .request, replies := conn.replies ++ delivered e.greeting [5, 0]
          down := { conn.down with buf := { conn.down.buf with
            len := (rest.drop n.toNat).length
            array := splice (splice conn.down.buf.array 0 segment.bytes) 0 (rest.drop n.toNat) } } }) :=
        methodSelect_more ⟨holds.fits, holds.bytes.trans whole⟩ more e
      refine ⟨{ conn with
        phase := .request, replies := conn.replies ++ delivered e.greeting [5, 0]
        down := { conn.down with buf := { conn.down.buf with
          len := (rest.drop n.toNat).length
          array := splice (splice conn.down.buf.array 0 segment.bytes) 0 (rest.drop n.toNat) } } },
        ⟨⟨unopened.ctx, room, unopened.header⟩, by simp [answers, replied], greeted.plain, greeted.produced, greeted.idle,
        greeted.quiet, greeted.unread, greeted.undelivered⟩, .inr ⟨found, ?_⟩⟩
      simp only [serverRecvCb, arrived, phase, received, ok_bind]
      rw [selected, ok_bind]
      rfl

/-- The first segments: one that is taken for a greeting, and one with the request. -/
theorem serverRecvCb_opens (lawful : P.evp.Lawful) (method : C.E.method ≠ .table) (ivLen : iv.length = C.E.ivLen)
    (greeted : Greeted C iv said conn) (early : conn.phase.remote? = none) {e : ServerRecv} {segment : Segment}
    (arrived : e.recv = .data segment) (done : serverRecvCb C conn e = .ok conn') :
    (conn.phase = .handshake ∧ conn'.phase = .request ∧ Greeted C iv (said ++ answers conn.phase e) conn') ∨
      ∃ front a c h rest, h.Valid ∧ segment.bytes = front ++ ([a, 1, c] ++ h.encode false ++ rest) ∧ (conn.phase = .request → front = []) ∧
        Streaming C iv h (choice C h rest) (opening C iv h (choice C h rest) (said ++ answers conn.phase e) rest) [] conn' := by
  obtain ⟨mid, before, ⟨-, handshake, phase, waits⟩ | ⟨found, reads⟩⟩ := serverRecvCb_early greeted early arrived
  · rw [waits] at done
    cases done
    exact .inl ⟨handshake, phase, before⟩
  · right
    obtain ⟨part, part_, holds, -⟩ := requestIn_holds greeted.unopened.room found
    obtain ⟨front, bytes, greeting⟩ := requestPart_suffix part_
    rw [reads] at done
    -- only a whole request is accepted
    have announced : Announces mid.down.buf.array := by
      by_contra no
      obtain ⟨why, refused⟩ := request_refused (C := C) before.unopened.room no e
      rw [refused] at done
      cases done
    have whole : ∃ (a c : UInt8) (h : Header) (rest : Bytes), h.Valid ∧ mid.down.buf.bytes = [a, 1, c] ++ h.encode false ++ rest := by
      by_contra cut
      obtain ⟨f, crashed⟩ := request_cut (C := C) before.unopened.room holds.fits announced cut e
      rw [crashed] at done
      cases done
    obtain ⟨a, c, h, rest, valid, whole⟩ := whole
    refine ⟨front, a, c, h, rest, valid, ?_, greeting, request_streaming lawful method ivLen valid before ⟨holds.fits, whole⟩ done⟩
    rw [bytes, ← whole, holds.bytes]

/-- In an early connection only the client is waited for. -/
theorem Greeted.enabled (greeted : Greeted C iv said conn) (early : conn.phase.remote? = none) {e : Event}
    (on : enabled conn e = true) : ∃ e', e = .serverRecv e' := by
  cases e with
  | serverRecv e => exact ⟨e, rfl⟩
  | serverSend => simp [Local.enabled, greeted.quiet] at on
  | remoteRecv => simp [Local.enabled, greeted.unread] at on
  | remoteSend => simp [Local.enabled, greeted.idle] at on
  | remoteTimeout => simp [Local.enabled, early] at on

/-! ## Every run -/

/-- A run, with the segments that have been read in it. -/
inductive Run (C : Config P) (iv : Bytes) : List Bytes → Conn P → Prop where
  | start : Run C iv [] (acceptCb C iv)
  | step {segs : List Bytes} {conn conn' : Conn P} {e : Event} (run : Run C iv segs conn) (on : enabled conn e = true)
      (fired : fire C conn e = .ok conn') : Run C iv (segs ++ e.payload) conn'

/-- The relay has begun with a request for `h` in the segment before `later`, and `later` goes out as
`fire_streaming` says as long as the cipher can go on. -/
structure Relays (C : Config P) (iv : Bytes) (segs : List Bytes) (h : Header) (rest : Bytes) (later : List Bytes) (conn : Conn P) :
    Prop where
  valid : h.Valid
  segments : ∃ front greeting a c, segs = front ++ [greeting ++ ([a, 1, c] ++ h.encode false ++ rest)] ++ later ∧ front.length ≤ 1 ∧
    (front ≠ [] → greeting = [])
  phase : ∃ r, conn.phase = .stream r
  streams : InLimit C.E ((firstSent C iv h (choice C h rest) rest).length +
      (framed C iv (choice C h rest) (opening C iv h (choice C h rest) [] rest).start later).length) →
    ∃ said, said <+: [5, 0] ∧ Streaming C iv h (choice C h rest) (opening C iv h (choice C h rest) said rest) later conn

theorem delivered_prefix (r : SendResult) (bs : Bytes) : delivered r bs <+: bs := by
  unfold delivered
  split
  · exact List.take_prefix _ _
  · exact List.nil_prefix

/-- What a callback of a relay leaves alone. -/
structure Goes (conn conn' : Conn P) : Prop where
  phase : ∃ r, conn'.phase = .stream r
  header : conn'.header = conn.header
  replies : conn'.replies = conn.replies
  accepted : conn.down.accepted <+: conn'.down.accepted

theorem Steady.goes (steady : Steady conn conn') (at_ : conn.phase = .stream remote) (accepted : conn.down.accepted <+: conn'.down.accepted) :
    Goes conn conn' := by
  obtain ⟨r, at', -⟩ := steady.phase remote at_
  exact ⟨⟨r, at'⟩, steady.header, steady.replies, accepted⟩

theorem prefix_of_eq {xs ys : Bytes} (same : xs = ys) : xs <+: ys := ⟨[], (List.append_nil xs).trans same⟩

theorem grows_of_eq {p p' : Pipe} {filling : Bool} (same : p' = { p with filling }) : p.accepted <+: p'.accepted :=
  prefix_of_eq (congrArg Pipe.accepted same).symm

theorem relayUp_goes {e : ServerRecv} (at_ : conn.phase = .stream remote) (relayed : relayUp C conn remote e = .ok conn') : Goes conn conn' := by
  obtain ⟨⟨r, mid⟩, encrypted, relayed⟩ := bind_eq_ok.mp relayed
  obtain ⟨at', -, down, -⟩ := encryptUp_cases at_ encrypted
  have same : mid.header = conn.header ∧ mid.replies = conn.replies := by
    unfold encryptUp at encrypted
    split at encrypted
    · cases encrypted
      exact ⟨rfl, rfl⟩
    · obtain ⟨hashed, -, encrypted⟩ := bind_eq_ok.mp encrypted
      obtain ⟨cipher, -, encrypted⟩ := bind_eq_ok.mp encrypted
      cases encrypted
      exact ⟨rfl, rfl⟩
  dsimp only at relayed
  split at relayed
  · obtain ⟨up, -, relayed⟩ := bind_eq_ok.mp relayed
    cases relayed
    exact ⟨⟨r, at'⟩, same.1, same.2, prefix_of_eq (congrArg Pipe.accepted down).symm⟩
  · rename_i off
    rw [Bool.not_eq_true] at off
    have goes := (openRemote_steady at' relayed).goes at' (grows_of_eq (openRemote_down at' off relayed))
    exact ⟨goes.phase, goes.header.trans same.1, goes.replies.trans same.2, down ▸ goes.accepted⟩

/-- The callbacks of a relay go on with it. Data from the application are relayed, data from the
remote only add to what the application has, and no event goes back in the handshake. -/
theorem fire_goes {r : Remote} (at_ : conn.phase = .stream r) {e : Event} (fired : fire C conn e = .ok conn') : Goes conn conn' := by
  have here : conn.phase.remote? = some r := by rw [at_]; rfl
  cases e with
  | serverRecv e =>
    change serverRecvCb C conn e = .ok conn' at fired
    unfold serverRecvCb at fired
    split at fired
    · cases fired
    · cases fired
    · cases fired
      exact ⟨⟨r, at_⟩, rfl, rfl, List.prefix_rfl⟩
    · split at fired
      · rename_i at'
        obtain ⟨up, -, relayed⟩ := bind_eq_ok.mp fired
        have still : ({ conn with up } : Conn P).phase = .stream _ := at'
        have goes := relayUp_goes still relayed
        exact ⟨goes.phase, goes.header, goes.replies, goes.accepted⟩
      · rename_i at'
        rw [at_] at at'
        cases at'
      · rename_i at'
        rw [at_] at at'
        cases at'
  | serverSend send =>
    obtain ⟨down, drained, fired⟩ := bind_eq_ok.mp fired
    cases fired
    exact ⟨⟨r, at_⟩, rfl, rfl, (Pipe.drain_grows drained).2⟩
  | remoteRecv e =>
    obtain ⟨r', found, fired⟩ := bind_eq_ok.mp fired
    rw [orCrash_eq_ok, deref_eq_ok] at found
    have grows : conn.down.accepted <+: conn'.down.accepted := by
      obtain ⟨-, -, same | ⟨buf, pushed⟩⟩ := remoteRecvCb_cases found fired
      · exact prefix_of_eq (congrArg Pipe.accepted same).symm
      · exact (Pipe.push_grows pushed).2
    unfold remoteRecvCb at fired
    dsimp only at fired
    split at fired
    · cases fired
    · cases fired
    · cases fired
      exact ⟨⟨_, rfl⟩, rfl, rfl, grows⟩
    split at fired
    · obtain ⟨down, -, fired⟩ := bind_eq_ok.mp fired
      obtain ⟨down', -, fired⟩ := bind_eq_ok.mp fired
      cases fired
      exact ⟨⟨_, rfl⟩, rfl, rfl, grows⟩
    · obtain ⟨relayed, -, fired⟩ := bind_eq_ok.mp fired
      cases fired
      exact ⟨⟨_, rfl⟩, rfl, rfl, grows⟩
  | remoteSend peer send =>
    obtain ⟨r', found, fired⟩ := bind_eq_ok.mp fired
    rw [orCrash_eq_ok, deref_eq_ok, here, Option.some_inj] at found
    subst found
    refine (remoteSendCb_steady at_ fired).goes at_ ?_
    cases connected : r.connected with
    | true => exact prefix_of_eq (congrArg Pipe.accepted (remoteSendCb_connected connected fired).2.1).symm
    | false => exact grows_of_eq (remoteSendCb_opening connected fired).2.1
  | remoteTimeout => cases fired

/-- How far a run has come. -/
inductive Come (C : Config P) (iv : Bytes) (segs : List Bytes) (conn : Conn P) : Prop where
  | accepted (at_ : conn.phase = .handshake) (nothing : segs = []) (greeted : Greeted C iv [] conn)
  | greeted (said : Bytes) (at_ : conn.phase = .request) (one : segs.length = 1) (part : said <+: [5, 0]) (greeted : Greeted C iv said conn)
  | relays (h : Header) (rest : Bytes) (later : List Bytes) (relays : Relays C iv segs h rest later conn)

/-- The segment that ends the handshake. -/
theorem come_relays (segs : List Bytes) {front : Bytes} {a c : UInt8} {rest : Bytes} {segment : Segment} (short : segs.length ≤ 1)
    (valid : h.Valid) (bytes : segment.bytes = front ++ ([a, 1, c] ++ h.encode false ++ rest)) (greeting : segs ≠ [] → front = [])
    (part : said <+: [5, 0])
    (streaming : Streaming C iv h (choice C h rest) (opening C iv h (choice C h rest) said rest) [] conn) :
    Come C iv (segs ++ [segment.bytes]) conn := by
  obtain ⟨r, at_, -⟩ := streaming.phase
  refine .relays h rest [] ⟨valid, ⟨segs, front, a, c, ?_, short, greeting⟩, ⟨r, at_⟩, fun _ => ⟨said, part, streaming⟩⟩
  rw [List.append_nil, bytes]

/-- After a greeting alone the next segment is the request; after the request what comes is
payload. -/
theorem Come.fire {segs : List Bytes} (lawful : P.evp.Lawful) (method : C.E.method ≠ .table) (ivLen : iv.length = C.E.ivLen)
    (come : Come C iv segs conn) {e : Event} (on : enabled conn e = true) (fired : fire C conn e = .ok conn') :
    Come C iv (segs ++ e.payload) conn' := by
  cases come with
  | accepted at_ nothing greeted =>
    have early : conn.phase.remote? = none := by rw [at_]; rfl
    obtain ⟨e, rfl⟩ := greeted.enabled early on
    change serverRecvCb C conn e = .ok conn' at fired
    cases arrived : e.recv with
    | eof => simp only [serverRecvCb, arrived] at fired; cases fired
    | failed => simp only [serverRecvCb, arrived] at fired; cases fired
    | wouldBlock =>
      simp only [serverRecvCb, arrived] at fired
      cases fired
      rw [Event.payload, arrived, List.append_nil]
      exact .accepted at_ nothing greeted
    | data segment =>
      have part : [] ++ answers conn.phase e <+: [5, 0] := by
        rw [at_]
        exact delivered_prefix _ _
      rw [Event.payload, arrived, nothing]
      rcases serverRecvCb_opens lawful method ivLen greeted early arrived fired with
        ⟨-, phase, greeted'⟩ | ⟨front, a, c, h, rest, valid, bytes, -, streaming⟩
      · exact .greeted _ phase rfl part greeted'
      · exact come_relays [] (Nat.zero_le _) valid bytes (fun no => absurd rfl no) part streaming
  | greeted said at_ one part greeted =>
    have early : conn.phase.remote? = none := by rw [at_]; rfl
    obtain ⟨e, rfl⟩ := greeted.enabled early on
    change serverRecvCb C conn e = .ok conn' at fired
    cases arrived : e.recv with
    | eof => simp only [serverRecvCb, arrived] at fired; cases fired
    | failed => simp only [serverRecvCb, arrived] at fired; cases fired
    | wouldBlock =>
      simp only [serverRecvCb, arrived] at fired
      cases fired
      rw [Event.payload, arrived, List.append_nil]
      exact .greeted said at_ one part greeted
    | data segment =>
      rw [Event.payload, arrived]
      rcases serverRecvCb_opens lawful method ivLen greeted early arrived fired with
        ⟨handshake, -⟩ | ⟨front, a, c, h, rest, valid, bytes, greeting, streaming⟩
      · rw [at_] at handshake
        cases handshake
      · refine come_relays segs (Nat.le_of_eq one) valid bytes (fun _ => greeting at_) ?_ streaming
        rw [at_]
        simpa [answers] using part
  | relays h rest later relays =>
    obtain ⟨r, at_⟩ := relays.phase
    obtain ⟨front, greeting, a, c, whole, short, alone⟩ := relays.segments
    refine .relays h rest (later ++ e.payload) ⟨relays.valid, ⟨front, greeting, a, c, ?_, short, alone⟩, (fire_goes at_ fired).phase,
      fun limit => ?_⟩
    · rw [whole, List.append_assoc]
    · obtain ⟨said, part, streaming⟩ := relays.streams (limit.mono (by
        rw [framed_append, List.length_append]
        omega))
      refine ⟨said, part, fire_streaming lawful ivLen streaming on ?_ fired⟩
      rw [List.length_append]
      exact limit

theorem Run.come {segs : List Bytes} (lawful : P.evp.Lawful) (method : C.E.method ≠ .table) (ivLen : iv.length = C.E.ivLen)
    (run : Run C iv segs conn) : Come C iv segs conn := by
  induction run with
  | start => exact .accepted rfl rfl ⟨⟨rfl, length_balloc _ _, rfl⟩, rfl, rfl, rfl, rfl, rfl, rfl, rfl⟩
  | step run on fired ih => exact ih.fire lawful method ivLen on fired

/-- In every run of ss-local that has a remote, there was one whole request, in the first segment behind a greeting or
in the second, and everything produced for the remote so far is the ciphertext of its header and of the payload: of
what came with the request, cut short if it had to become a chunk, and of each later segment as a chunk of its own. -/
theorem upstream_encrypted {segs : List Bytes} {r : Remote} (lawful : P.evp.Lawful) (method : C.E.method ≠ .table)
    (ivLen : iv.length = C.E.ivLen) (run : Run C iv segs conn) (at_ : conn.phase = .stream r) :
    ∃ h rest later front greeting a c, h.Valid ∧ segs = front ++ [greeting ++ ([a, 1, c] ++ h.encode false ++ rest)] ++ later ∧
      front.length ≤ 1 ∧ (front ≠ [] → greeting = []) ∧
      (InLimit C.E ((firstSent C iv h (choice C h rest) rest).length +
          (framed C iv (choice C h rest) (opening C iv h (choice C h rest) [] rest).start later).length) →
        conn.header = some (h.encode false) ∧ conn.up.produced = onWire C iv (choice C h rest)
          (firstSent C iv h (choice C h rest) rest ++
            framed C iv (choice C h rest) (opening C iv h (choice C h rest) [] rest).start later)) := by
  cases run.come lawful method ivLen with
  | accepted no => rw [at_] at no; cases no
  | greeted _ no => rw [at_] at no; cases no
  | relays h rest later relays =>
    obtain ⟨front, greeting, a, c, whole, short, alone⟩ := relays.segments
    refine ⟨h, rest, later, front, greeting, a, c, relays.valid, whole, short, alone, fun limit => ?_⟩
    obtain ⟨said, -, streaming⟩ := relays.streams limit
    refine ⟨streaming.header, ?_⟩
    rw [streaming.produced, streaming.plain]
    rfl

theorem Run.of_run {segs : List Bytes} {es : List Event} (run : Run C iv segs conn) (ran : (machine C).run conn es = some (.ok conn')) :
    Run C iv (segs ++ es.flatMap Event.payload) conn' := by
  induction es generalizing segs conn with
  | nil =>
    cases ran
    simpa using run
  | cons e es ih =>
    simp only [Machine.run] at ran
    split at ran
    · rename_i on
      cases fired : (machine C).fire conn e with
      | ok mid =>
        rw [fired] at ran
        have after := ih (run.step on fired) ran
        rwa [List.append_assoc] at after
      | error t =>
        rw [fired] at ran
        cases ran
    · cases ran

end

theorem upstream_encrypted_pipelined : ∃ conn, ∃ h : Header,
    Run rc4Config [] [[5, 1, 0], [5, 1, 0, 1, 10, 0, 0, 1, 0, 80, 65, 66]] conn ∧ conn.up.accepted.length = 3 ∧
      h.Valid ∧ conn.header = some (h.encode false) := by
  have ran : (machine rc4Config).leadsTo (acceptCb rc4Config [])
      (pipelinedRequest .inProgress ++ [.remoteSend true (.short 3)])
      (fun conn => conn.up.accepted.length == 3 && conn.phase.remote?.isSome) = true := by decide +kernel
  obtain ⟨conn, ran, known⟩ := Machine.exists_of_leadsTo ran
  rw [Bool.and_eq_true, beq_iff_eq, Option.isSome_iff_exists] at known
  obtain ⟨three, r, here⟩ := known
  have at_ : conn.phase = .stream r := by
    cases phase : conn.phase with
    | stream r' => simpa [phase, Phase.remote?] using here
    | _ => simp [phase, Phase.remote?] at here
  have run := Run.start.of_run ran
  obtain ⟨h, rest, later, front, greeting, a, c, valid, -, -, -, streams⟩ :=
    upstream_encrypted rc4_lawful (by decide) rfl run at_
  exact ⟨conn, h, run, three, valid, (streams fun no => by cases no).1⟩

end Shadowsocks.Local
