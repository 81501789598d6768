import Shadowsocks.Local.Relay
import Shadowsocks.Local.Talk
import Shadowsocks.Relay.Faults

/-!
# The first segments at ss-local

Stages 0 and 1 take their lengths from the bytes of the client. A request that is all there
is answered, and the connection goes on with a header made of it or is closed. If only a
part of it has arrived, the length of the rest wraps around. Behind a whole request three
more things go wrong: a direct remote that could not be created is dereferenced, with the
method `table` there is no context to authenticate with, and a long rest does not fit
behind its chunk header.
-/

namespace Shadowsocks.Local
set_option autoImplicit false
open Lib

section
variable {α β : Type} {φ ψ : α → Prop} {x : Except Stop α}

/-- The connection is closed, or there is a result with `φ`. -/
def Settles (φ : α → Prop) (x : Except Stop α) : Prop :=
  (∃ why, x = .error (.closed why)) ∨ ∃ a, x = .ok a ∧ φ a

/-- A step leaves the memory it may use. -/
def Crashes (x : Except Stop α) : Prop := ∃ f, x = .error (.crashed f)

theorem settles_ok {a : α} (h : φ a) : Settles φ (.ok a) := .inr ⟨a, rfl, h⟩

theorem settles_closed (why : Closing) : Settles φ (.error (.closed why) : Except Stop α) := .inl ⟨why, rfl⟩

theorem Settles.bind {χ : β → Prop} {f : α → Except Stop β} (first : Settles φ x) (rest : ∀ a, φ a → Settles χ (f a)) :
    Settles χ (x >>= f) := by
  rcases first with ⟨why, rfl⟩ | ⟨a, rfl, known⟩
  · exact settles_closed why
  · exact rest a known

theorem Settles.mono (h : Settles φ x) (weaker : ∀ a, φ a → ψ a) : Settles ψ x := by
  rcases h with closed | ⟨a, eq, known⟩
  · exact .inl closed
  · exact .inr ⟨a, eq, weaker a known⟩

theorem Settles.not_crashes (h : Settles φ x) : ¬ Crashes x := by
  rintro ⟨f, rfl⟩
  rcases h with ⟨why, no⟩ | ⟨a, no, -⟩ <;> cases no

theorem Crashes.bind {f : α → Except Stop β} (h : Crashes x) : Crashes (x >>= f) := by
  obtain ⟨bad, rfl⟩ := h
  exact ⟨bad, rfl⟩

end

section
variable {P : Platform} {C : Config P} {iv : Bytes} {h : Header} {conn : Conn P} {remote : Remote} {e : ServerRecv}

/-! ## Opening the remote -/

/-- The relay has begun, with this header. -/
def Opens (header : Option Bytes) (conn : Conn P) : Prop := conn.header = header ∧ ∃ r, conn.phase = .stream r

theorem drain_settles {p : Pipe} (within : p.buf.idx + p.buf.len ≤ p.buf.array.length) (r : SendResult) :
    Settles (fun _ => True) (p.drain r) := by
  unfold Pipe.drain
  split
  · exact settles_closed _
  · rw [Buffer.read_ok within, orCrash_ok, ok_bind]
    cases r.on p.buf.len with
    | again => exact settles_ok trivial
    | error => exact settles_closed _
    | count s =>
      dsimp only
      split
      · exact settles_ok trivial
      · exact settles_ok trivial

/-- The inline `remote_send_cb`. -/
theorem remoteSendCb_settles (off : remote.connected = false) (within : conn.up.buf.idx + conn.up.buf.len ≤ conn.up.buf.array.length)
    (peer : Bool) (send : SendResult) : Settles (Opens conn.header) (remoteSendCb conn remote peer send) := by
  unfold remoteSendCb
  rw [off, if_neg Bool.false_ne_true]
  split
  · dsimp only
    split
    · exact settles_ok ⟨rfl, _, rfl⟩
    · exact (drain_settles within send).bind fun up _ => settles_ok ⟨rfl, _, rfl⟩
  · exact settles_closed _

theorem openRemote_settles (at_ : conn.phase = .stream remote) (off : remote.connected = false) (fits : conn.up.buf.Fits)
    (e : ServerRecv) : Settles (Opens conn.header) (openRemote C conn remote e) := by
  have within : 0 + conn.up.buf.len ≤ conn.up.buf.array.length := by
    rw [Nat.zero_add]
    exact fits
  unfold openRemote
  split
  · exact settles_closed _
  · dsimp only
    split
    · split
      · exact settles_closed _
      · rename_i peer send _
        exact remoteSendCb_settles off within peer send
      · exact settles_ok ⟨rfl, _, rfl⟩
    · split
      · exact settles_closed _
      · exact settles_ok ⟨rfl, _, at_⟩
      · have read : ({ conn.up.buf with idx := 0 } : Buffer).read 0 conn.up.buf.len = .ok (window conn.up.buf.array 0 conn.up.buf.len) :=
          Buffer.read_ok within
        rw [read, orCrash_ok, ok_bind]
        exact settles_ok ⟨rfl, _, rfl⟩

/-- Without a context every byte is looked up in the table. -/
theorem encryptBuf_table (E : Encryptor P) {buf : Buffer} (fits : buf.Fits) (tmp : Buffer) :
    ∃ out, encryptBuf E buf none tmp = .ok (out, none) ∧ out.Fits := by
  have size : (buf.bytes.map E.encTable).length = buf.len := by rw [List.length_map, Buffer.length_bytes fits]
  have within : buf.len ≤ buf.array.length := fits
  have kept : (splice buf.array 0 (buf.bytes.map E.encTable)).length = buf.array.length := length_splice (by omega)
  have load : buf.read 0 buf.len = .ok buf.bytes := Buffer.read_ok (by omega)
  refine ⟨{ buf with array := splice buf.array 0 (buf.bytes.map E.encTable) }, ?_, ?_⟩
  · rw [encryptBuf, ssEncrypt, load, ok_bind, Buffer.write_ok (by omega)]
    rfl
  · rw [Buffer.Fits]
    dsimp only
    omega

/-- The first encryption of a connection. -/
theorem encryptBuf_first (lawful : P.evp.Lawful) (ivLen : iv.length = C.E.ivLen) {buf : Buffer} (fits : buf.Fits)
    (small : buf.len < 2 ^ 38) (tmp : Buffer) :
    ∃ out ctx, encryptBuf C.E buf (newContext C.E true iv) tmp = .ok (out, ctx) ∧ out.Fits := by
  rw [newContext]
  split
  · obtain ⟨out, encrypted, fits'⟩ := encryptBuf_table C.E fits tmp
    exact ⟨out, none, encrypted, fits'⟩
  · have fresh : EncAt C.E iv none (some (encCtxInit C.E true iv)) := rfl
    have holds : buf.Holds buf.bytes := ⟨fits, rfl⟩
    have len := holds.len
    have limit : 2 ^ 38 ≤ C.E.method.streamLimit := by cases C.E.method <;> decide
    obtain ⟨out, ctx, piece, encrypted, holds', -⟩ := encryptBuf_spec lawful ivLen tmp fresh holds (by omega)
      (fun _ => by rw [Option.getD_none, List.length_nil]; omega)
    exact ⟨out, ctx, encrypted, holds'.fits⟩

/-- Stage 5 with what `remote->buf` was filled with. -/
theorem relayUp_settles (lawful : P.evp.Lawful) (ivLen : iv.length = C.E.ivLen) (at_ : conn.phase = .stream remote)
    (off : remote.connected = false) (fits : conn.up.buf.Fits) (small : conn.up.buf.len < 2 ^ 38)
    (fresh : conn.eCtx = newContext C.E true iv) (e : ServerRecv) : Settles (Opens conn.header) (relayUp C conn remote e) := by
  have encrypts : ∃ r mid, encryptUp C conn remote e.encTmp = .ok (r, mid) ∧ r.connected = false ∧ mid.phase = .stream r ∧
      mid.header = conn.header ∧ mid.up.buf.Fits := by
    unfold encryptUp
    split
    · exact ⟨remote, _, rfl, off, at_, rfl, fits⟩
    · obtain ⟨out, ctx, encrypted, fits'⟩ := encryptBuf_first lawful ivLen fits small e.encTmp
      simp only [off, Bool.false_and, genHash, Bool.false_eq_true, if_false, pure_eq_ok, ok_bind, fresh, encrypted]
      exact ⟨_, _, rfl, rfl, rfl, rfl, fits'⟩
  obtain ⟨r, mid, encrypted, off', at', header, fits'⟩ := encrypts
  rw [relayUp, encrypted, ok_bind]
  dsimp only
  rw [off', if_neg Bool.false_ne_true, ← header]
  exact openRemote_settles at' off' fits' e

/-! ## Filling `remote->buf` -/

/-- The header with its tag and the rest in a chunk have room in `BUF_SIZE` bytes. -/
def HasRoom (h : Header) (rest : Bytes) : Prop :=
  (h.encode false).length + onetimeauthBytes + (authBytes + rest.length) ≤ bufSize

instance (h : Header) (rest : Bytes) : Decidable (HasRoom h rest) := inferInstanceAs (Decidable (_ ≤ _))

theorem hasRoom_iff (C : Config P) (iv : Bytes) (valid : h.Valid) {rest : Bytes} :
    HasRoom h rest ↔ (head C.E iv h true true).length + rest.length + authBytes ≤ bufSize := by
  rw [HasRoom, length_head C.E iv valid, Header.length_encode valid, if_pos rfl, onetimeauthBytes]
  omega

section
variable {abuf buf : Buffer} {rest : Bytes}

/-- Without authentication the context is not used. -/
theorem fillRemote_unauthenticated (auth : C.auth = false) (ctx ctx' : Option (EncCtx P)) (direct : Bool) :
    fillRemote C ctx abuf buf direct = fillRemote C ctx' abuf buf direct := by
  simp only [fillRemote, authHeader, genHash, auth, Bool.false_eq_true, if_false]

/-- With authentication the method `table` has no context. -/
theorem fillRemote_table (auth : C.auth = true) (header : abuf.Holds (h.encode false)) :
    fillRemote C none abuf buf false = .error (.crashed .nullPointer) := by
  have first : abuf.byte 0 = .ok h.addr.atyp := header.byte [] h.addr.atyp (h.addr.body ++ h.port)
  have parts : abuf.Holds ([h.addr.atyp] ++ (h.addr.body ++ h.port)) := header
  obtain ⟨flagged, wrote, -⟩ := parts.overwrite (show _ = [h.addr.atyp ||| 0x10].length from rfl)
  simp only [fillRemote, authHeader, auth, Bool.false_eq_true, if_false, if_true, first, orCrash_ok, ok_bind, wrote, deref,
    orCrash_error, error_bind]

/-- What is needed to fill the buffer. -/
def Fillable (C : Config P) (h : Header) (direct : Bool) (rest : Bytes) : Prop :=
  direct = false → C.auth = true → C.E.method ≠ .table ∧ (rest = [] ∨ HasRoom h rest)

theorem fillRemote_ends (ivLen : iv.length = C.E.ivLen) (valid : h.Valid) (holds : buf.Holds rest) (small : rest.length ≤ bufSize)
    (room : bufSize ≤ buf.array.length) (header : abuf.Holds (h.encode false)) {direct : Bool} (fillable : Fillable C h direct rest) :
    ∃ rbuf sbuf i, fillRemote C (newContext C.E true iv) abuf buf direct = .ok (rbuf, sbuf, i) ∧ rbuf.Fits ∧
      rbuf.len < 2 ^ 38 ∧ bufSize ≤ sbuf.array.length := by
  have cap : bufSize = 2048 := rfl
  have short := length_head_le C.E iv valid C.auth C.auth
  cases direct with
  | true =>
    obtain ⟨rbuf, filled, first, -⟩ := fillRemote_direct C (newContext C.E true iv) abuf holds small
    have len := first.len
    exact ⟨rbuf, buf, _, filled, first.fits, by omega, room⟩
  | false =>
    cases auth : C.auth with
    | false =>
      obtain ⟨rbuf, filled, first, -⟩ := fillRemote_proxied ivLen valid rfl holds small header (.inl auth)
      have len := first.len
      rw [List.length_append] at len
      rw [fillRemote_unauthenticated auth _ (some (encCtxInit C.E true iv))]
      exact ⟨rbuf, buf, _, filled, first.fits, by omega, room⟩
    | true =>
      obtain ⟨method, fits⟩ := fillable rfl auth
      have fresh : newContext C.E true iv = some (encCtxInit C.E true iv) := if_neg method
      by_cases empty : rest = []
      · obtain ⟨rbuf, filled, first, -⟩ := fillRemote_proxied ivLen valid fresh holds small header (.inr empty)
        have len := first.len
        rw [List.length_append] at len
        exact ⟨rbuf, buf, _, filled, first.fits, by omega, room⟩
      · have enough := (hasRoom_iff C iv valid).mp (fits.resolve_left empty)
        obtain ⟨rbuf, sbuf, filled, first, -, sbufRoom⟩ := fillRemote_truncates ivLen valid fresh holds header room auth
          (List.length_pos_iff.mpr empty) enough
        have len := first.len
        rw [List.length_append, List.length_take] at len
        exact ⟨rbuf, sbuf, _, filled, first.fits, by omega, sbufRoom⟩

theorem fillRemote_crashes (ivLen : iv.length = C.E.ivLen) (valid : h.Valid) (holds : buf.Holds rest) (small : rest.length ≤ bufSize)
    (room : bufSize ≤ buf.array.length) (header : abuf.Holds (h.encode false)) {direct : Bool} (no : ¬ Fillable C h direct rest) :
    Crashes (fillRemote C (newContext C.E true iv) abuf buf direct) := by
  rw [Fillable, Classical.not_imp, Classical.not_imp] at no
  obtain ⟨rfl, auth, no⟩ := no
  by_cases method : C.E.method = .table
  · rw [newContext, if_pos method]
    exact ⟨_, fillRemote_table auth header⟩
  · have fresh : newContext C.E true iv = some (encCtxInit C.E true iv) := if_neg method
    have long : ¬ (rest = [] ∨ HasRoom h rest) := fun fits => no ⟨method, fits⟩
    rw [not_or, hasRoom_iff C iv valid] at long
    exact ⟨_, fillRemote_overflows ivLen valid fresh holds small header room auth (List.length_pos_iff.mpr long.1) long.2⟩

end

/-! ## Stage 1 -/

/-- The bytes where a request has its command and its address type announce a `CONNECT`
request with a known address. They are read whether they have arrived or not. -/
def Announces (array : Bytes) : Prop :=
  array[1]? = some 1 ∧ (array[3]? = some 1 ∨ array[3]? = some 3 ∨ array[3]? = some 4)

/-- What is behind a whole request. A direct connection needs its remote; a proxied one
that has a remote and authenticates needs a context, and room for the first chunk. -/
def Makes (C : Config P) (e : ServerRecv) (h : Header) (rest : Bytes) : Prop :=
  if choice C h rest then e.resolved = true → e.created = true
  else e.created = true → C.auth = true → C.E.method ≠ .table ∧ (rest = [] ∨ HasRoom h rest)

/-- A request that is announced has arrived, and its connection can be made. -/
def Fine (C : Config P) (e : ServerRecv) (buf : Buffer) : Prop :=
  Announces buf.array → ∃ (a c : UInt8) (h : Header) (rest : Bytes), h.Valid ∧
    buf.bytes = [a, 1, c] ++ h.encode false ++ rest ∧ Makes C e h rest

/-- A connection that has no remote yet. -/
structure Unopened (C : Config P) (iv : Bytes) (conn : Conn P) : Prop where
  ctx : conn.eCtx = newContext C.E true iv
  room : conn.down.buf.array.length = bufSize
  header : conn.header = none

theorem byte_eq {buf : Buffer} {i : Nat} {x : UInt8} (found : buf.array[i]? = some x) : buf.byte i = .ok x := by
  rw [Buffer.byte, found]

theorem exists_byte {buf : Buffer} (room : buf.array.length = bufSize) {i : Nat} (inside : i < bufSize) :
    ∃ x, buf.array[i]? = some x ∧ buf.byte i = .ok x := by
  rw [← room] at inside
  have found : buf.array[i]? = some buf.array[i] := List.getElem?_eq_getElem inside
  exact ⟨_, found, byte_eq found⟩

/-- The first byte of the header. -/
theorem exists_typed (t : UInt8) : ∃ abuf, (balloc P.junk bufSize).append [t] = .ok abuf ∧ abuf.Holds [t] := by
  have alloc : (balloc P.junk bufSize).array.length = bufSize := length_balloc _ _
  obtain ⟨abuf, typed, holds, -⟩ := (balloc_holds P.junk bufSize).append [t] (by rw [alloc, bufSize]; simp)
  exact ⟨abuf, typed, holds⟩

/-- No other request is read. -/
theorem request_refused (room : conn.down.buf.array.length = bufSize) (no : ¬ Announces conn.down.buf.array) (e : ServerRecv) :
    ∃ why, request C conn e = .error (.closed why) := by
  obtain ⟨cmd, found, byte⟩ := exists_byte room (show 1 < bufSize by decide)
  obtain ⟨t, found', byte'⟩ := exists_byte room (show 3 < bufSize by decide)
  rw [request, handleRequest, byte, orCrash_ok, ok_bind]
  split
  · exact ⟨_, rfl⟩
  · split
    · exact ⟨_, rfl⟩
    · rename_i connect
      have one : cmd = 1 := Decidable.not_not.mp connect
      subst one
      have other : ¬ t = 1 ∧ ¬ t = 3 ∧ ¬ t = 4 := by
        refine ⟨?_, ?_, ?_⟩ <;> rintro rfl
        · exact no ⟨found, .inl found'⟩
        · exact no ⟨found, .inr (.inl found')⟩
        · exact no ⟨found, .inr (.inr found')⟩
      obtain ⟨abuf, typed, -⟩ := exists_typed (P := P) t
      have unsupported : readRequest C conn.down.buf = .error (.closed .unsupportedAddrType) := by
        simp only [readRequest, buildHeader, byte', typed, orCrash_ok, ok_bind, if_neg other.1, if_neg other.2.1, if_neg other.2.2,
          error_bind]
      rw [unsupported]
      exact ⟨_, rfl⟩

/-- Of an announced request only the accesses to memory can fail. -/
theorem readRequest_open {buf : Buffer} (announced : Announces buf.array) (why : Closing) :
    Avoids (.closed why) (readRequest C buf) := by
  have built : Avoids (.closed why) (buildHeader C buf) := by
    obtain ⟨-, known⟩ := announced
    refine .bind_ok (orCrash_open _ _) fun t typ => .bind (orCrash_open _ _) fun abuf => ?_
    rw [orCrash_eq_ok] at typ
    split
    · exact .bind (orCrash_open _ _) fun _ => .bind (orCrash_open _ _) fun _ => avoids_ok _
    · rename_i not1
      split
      · exact .bind (orCrash_open _ _) fun _ => .bind (orCrash_open _ _) fun _ => .bind (orCrash_open _ _) fun _ =>
          .bind (orCrash_open _ _) fun _ => avoids_ok _
      · rename_i not3
        split
        · exact .bind (orCrash_open _ _) fun _ => .bind (orCrash_open _ _) fun _ => avoids_ok _
        · rename_i not4
          -- the type that was read is one of the three
          rcases known with v4 | domain | v6
          · exact absurd (Except.ok.inj (typ.symm.trans (byte_eq v4))) not1
          · exact absurd (Except.ok.inj (typ.symm.trans (byte_eq domain))) not3
          · exact absurd (Except.ok.inj (typ.symm.trans (byte_eq v6))) not4
  exact .bind built fun _ => .bind (orCrash_open _ _) fun _ => .bind (orCrash_open _ _) fun _ => avoids_ok _

/-- A request that is not all there: the length of the rest wraps around. -/
theorem request_cut (room : conn.down.buf.array.length = bufSize) (fits : conn.down.buf.Fits) (announced : Announces conn.down.buf.array)
    (cut : ¬ ∃ (a c : UInt8) (h : Header) (rest : Bytes), h.Valid ∧ conn.down.buf.bytes = [a, 1, c] ++ h.encode false ++ rest)
    (e : ServerRecv) : Crashes (request C conn e) := by
  have one : conn.down.buf.byte 1 = .ok 1 := byte_eq announced.1
  have other : (!C.tcpOnly && (1 : UInt8) == 3) = false := by rw [show ((1 : UInt8) == 3) = false by decide, Bool.and_false]
  simp only [request, handleRequest, one, orCrash_ok, ok_bind, other, Bool.false_eq_true, if_false, ne_eq, not_true]
  cases read : readRequest C conn.down.buf with
  | ok r =>
    obtain ⟨abuf, buf, direct⟩ := r
    obtain ⟨a, b, c, h, rest, valid, eq⟩ := readRequest_inv (by rw [room]; decide) ⟨fits, rfl⟩ read
    have second : conn.down.buf.byte 1 = .ok b := by
      have holds : conn.down.buf.Holds ([a] ++ b :: (c :: (h.encode false ++ rest))) := ⟨fits, eq⟩
      exact holds.byte [a] b _
    rw [one] at second
    cases second
    exact absurd ⟨a, c, h, rest, valid, eq⟩ cut
  | error t =>
    cases t with
    | closed why => exact absurd read (readRequest_open announced why)
    | crashed f => exact ⟨f, rfl⟩

theorem createRemote_settles {direct : Bool} (made : direct = true → e.resolved = true → e.created = true) :
    Settles (fun r => r.connected = false ∧ e.created = true) (createRemote direct e) := by
  unfold createRemote
  split
  · rename_i yes
    split
    · rename_i resolved
      rw [if_pos (made yes resolved)]
      exact settles_ok ⟨rfl, made yes resolved⟩
    · exact settles_closed _
  · split
    · rename_i created
      exact settles_ok ⟨rfl, created⟩
    · exact settles_closed _

/-- Stage 1 from the choice on. -/
def answerRequest (C : Config P) (conn : Conn P) (e : ServerRecv) (abuf buf : Buffer) (direct : Bool) : Except Stop (Conn P) := do
  let remote ← createRemote direct e
  let (rbuf, buf, counter) ← fillRemote C conn.eCtx abuf buf direct
  let remote := { remote with counter }
  let buf ← orCrash (buf.write 0 fakeReply)
  match e.reply.on fakeReply.length with
  | .count s =>
    if s < fakeReply.length then .error (.closed .fakeReplyFailed)
    else relayUp C { conn with
      phase := .stream remote, up := { conn.up with buf := rbuf }, down := { conn.down with buf },
      replies := conn.replies ++ fakeReply, header := some abuf.bytes } remote e
  | _ => .error (.closed .fakeReplyFailed)

section
variable {a c : UInt8} {rest : Bytes}

theorem request_whole (valid : h.Valid) (holds : conn.down.buf.Holds ([a, 1, c] ++ h.encode false ++ rest)) (e : ServerRecv) :
    ∃ abuf buf, request C conn e = answerRequest C conn e abuf buf (choice C h rest) ∧ abuf.Holds (h.encode false) ∧
      buf.Holds rest ∧ buf.array.length = conn.down.buf.array.length := by
  have cmd : conn.down.buf.byte 1 = .ok 1 := holds.byte [a] 1 (c :: (h.encode false ++ rest))
  have other : (!C.tcpOnly && (1 : UInt8) == 3) = false := by rw [show ((1 : UInt8) == 3) = false by decide, Bool.and_false]
  obtain ⟨abuf, buf, read, header, -, behind, size, -⟩ := readRequest_spec C valid holds
  refine ⟨abuf, buf, ?_, header, behind, size⟩
  simp only [request, handleRequest, cmd, orCrash_ok, ok_bind, other, Bool.false_eq_true, if_false, ne_eq, not_true, read,
    answerRequest]
  cases createRemote (choice C h rest) e with
  | error t => rfl
  | ok remote =>
    dsimp only [ok_bind]
    cases fillRemote C conn.eCtx abuf buf (choice C h rest) with
    | error t => rfl
    | ok filled =>
      dsimp only [ok_bind]
      cases filled.2.1.write 0 fakeReply with
      | error f => rfl
      | ok sbuf =>
        dsimp only [orCrash_ok, ok_bind]
        cases e.reply.on fakeReply.length with
        | again => rfl
        | error => rfl
        | count s =>
          dsimp only
          split
          · rfl
          · rfl

/-- A whole request whose connection can be made. -/
theorem request_settles (lawful : P.evp.Lawful) (ivLen : iv.length = C.E.ivLen) (before : Unopened C iv conn) (valid : h.Valid)
    (holds : conn.down.buf.Holds ([a, 1, c] ++ h.encode false ++ rest)) (makes : Makes C e h rest) :
    Settles (Opens (some (h.encode false))) (request C conn e) := by
  have room := holds.room
  rw [List.length_append, before.room] at room
  obtain ⟨abuf, buf, answered, header, behind, size⟩ := request_whole (C := C) valid holds e
  have made : choice C h rest = true → e.resolved = true → e.created = true := by
    intro yes
    rwa [Makes, if_pos yes] at makes
  rw [answered]
  refine (createRemote_settles made).bind fun remote new => ?_
  obtain ⟨off, created⟩ := new
  have fillable : Fillable C h (choice C h rest) rest := by
    intro no
    rw [Makes, if_neg (by rw [no]; exact Bool.false_ne_true)] at makes
    exact makes created
  obtain ⟨rbuf, sbuf, i, filled, fits, small, sbufRoom⟩ :=
    fillRemote_ends ivLen valid behind (by omega) (by rw [size, before.room]) header fillable
  rw [← before.ctx] at filled
  rw [filled, ok_bind]
  dsimp only
  rw [Buffer.write_ok (show 0 + fakeReply.length ≤ sbuf.array.length from Nat.le_trans (by decide) sbufRoom), orCrash_ok, ok_bind]
  split
  · split
    · exact settles_closed _
    · have opened : ∀ mid : Conn P, mid.phase = .stream { remote with counter := i } → mid.up.buf = rbuf → mid.eCtx = conn.eCtx →
          mid.header = some (h.encode false) →
          Settles (Opens (some (h.encode false))) (relayUp C mid { remote with counter := i } e) := by
        intro mid at_ up ctx built
        rw [← built]
        exact relayUp_settles lawful ivLen at_ off (up ▸ fits) (up ▸ small) (ctx.trans before.ctx) e
      exact opened _ rfl rfl rfl (congrArg some header.bytes)
  · exact settles_closed _

/-- A whole request whose connection cannot be made. -/
theorem request_crashes (ivLen : iv.length = C.E.ivLen) (before : Unopened C iv conn) (valid : h.Valid)
    (holds : conn.down.buf.Holds ([a, 1, c] ++ h.encode false ++ rest)) (no : ¬ Makes C e h rest) : Crashes (request C conn e) := by
  have room := holds.room
  rw [List.length_append, before.room] at room
  obtain ⟨abuf, buf, answered, header, behind, size⟩ := request_whole (C := C) valid holds e
  rw [answered, answerRequest]
  rw [Makes] at no
  split at no
  · rename_i direct
    rw [Classical.not_imp] at no
    have failed : createRemote true e = .error (.crashed .nullPointer) := by
      simp only [createRemote, if_true, if_pos no.1, if_neg no.2]
    rw [direct, failed]
    exact ⟨_, rfl⟩
  · rename_i proxied
    rw [Bool.not_eq_true] at proxied
    rw [Classical.not_imp, Classical.not_imp] at no
    obtain ⟨created, auth, no⟩ := no
    have made : createRemote false e = .ok { direct := false } := by
      simp only [createRemote, Bool.false_eq_true, if_false, if_pos created]
    rw [proxied, made, ok_bind, before.ctx]
    exact (fillRemote_crashes ivLen valid behind (by omega) (by rw [size, before.room]) header fun fillable =>
      no (fillable rfl auth)).bind

end

/-! ## Stage 0 -/

/-- The part of a segment that stage 1 takes for a request: all of it, or what is behind a
greeting. -/
def requestPart : Phase → Bytes → Option Bytes
  | .request, bytes => some bytes
  | .handshake, 5 :: n :: rest => if n.toNat < rest.length then some (rest.drop n.toNat) else none
  | _, _ => none

/-- `server->buf` as stage 1 finds it. Behind the request the allocation keeps what it had. -/
def requestIn (conn : Conn P) (segment : Segment) : Option Buffer :=
  (requestPart conn.phase segment.bytes).map fun part =>
    { idx := conn.down.buf.idx, len := part.length
      array := splice (splice conn.down.buf.array 0 segment.bytes) 0 part }

section
variable {segment : Segment} {buf : Buffer}

theorem requestPart_handshake {bytes part : Bytes} (found : requestPart .handshake bytes = some part) :
    ∃ n rest, bytes = 5 :: n :: rest ∧ n.toNat < rest.length ∧ part = rest.drop n.toNat := by
  unfold requestPart at found
  split at found
  · rename_i no
    cases no
  · rename_i n rest _
    split at found
    · rename_i more
      cases found
      exact ⟨n, rest, rfl, more, rfl⟩
    · cases found
  · cases found

theorem requestPart_suffix {phase : Phase} {bytes part : Bytes} (found : requestPart phase bytes = some part) :
    ∃ front, bytes = front ++ part ∧ (phase = .request → front = []) := by
  cases phase with
  | stream r => cases found
  | request =>
    cases found
    exact ⟨[], rfl, fun _ => rfl⟩
  | handshake =>
    obtain ⟨n, rest, rfl, -, rfl⟩ := requestPart_handshake found
    refine ⟨5 :: n :: rest.take n.toNat, ?_, nofun⟩
    rw [List.cons_append, List.cons_append, List.take_append_drop]

/-- The request lies in the allocation. -/
theorem requestIn_holds (room : conn.down.buf.array.length = bufSize) (found : requestIn conn segment = some buf) :
    ∃ part, requestPart conn.phase segment.bytes = some part ∧ buf.Holds part ∧ buf.array.length = bufSize := by
  obtain ⟨part, part_, rfl⟩ := Option.map_eq_some_iff.mp found
  obtain ⟨front, whole, -⟩ := requestPart_suffix part_
  have le := segment.le
  rw [whole, List.length_append] at le
  have first : (splice conn.down.buf.array 0 segment.bytes).length = bufSize := by
    rw [length_splice (by rw [room, Nat.zero_add]; exact segment.le), room]
  have second : (splice (splice conn.down.buf.array 0 segment.bytes) 0 part).length = bufSize := by
    rw [length_splice (by omega), first]
  refine ⟨part, part_, ⟨?_, window_splice_self _ _ _ (Nat.zero_le _)⟩, second⟩
  rw [Buffer.Fits]
  dsimp only
  omega

/-- The first segment, if there is more in it than the greeting. -/
theorem methodSelect_more {n : UInt8} {rest : Bytes} (holds : conn.down.buf.Holds (5 :: n :: rest)) (more : n.toNat < rest.length)
    (e : ServerRecv) :
    methodSelect conn e = .ok (true, { conn with
      phase := .request, replies := conn.replies ++ delivered e.greeting [5, 0]
      down := { conn.down with buf := { conn.down.buf with
        len := (rest.drop n.toNat).length, array := splice conn.down.buf.array 0 (rest.drop n.toNat) } } }) := by
  have second : conn.down.buf.byte 1 = .ok n := holds.byte [5] n rest
  have first : conn.down.buf.byte 0 = .ok 5 := holds.byte [] 5 (n :: rest)
  have len := holds.len
  have inside := holds.room
  simp only [List.length_cons] at len inside
  have left : conn.down.buf.len - (n.toNat + 2) = (rest.drop n.toNat).length := by
    rw [List.length_drop]
    omega
  have parts : (5 :: n :: rest.take n.toNat) ++ rest.drop n.toNat = 5 :: n :: rest := by
    rw [List.cons_append, List.cons_append, List.take_append_drop]
  have front : (5 :: n :: rest.take n.toNat).length = n.toNat + 2 := by
    simp only [List.length_cons, List.length_take]
    omega
  have behind : window conn.down.buf.array (n.toNat + 2) (rest.drop n.toNat).length = rest.drop n.toNat := by
    rw [holds.window (by simp only [List.length_cons, List.length_drop]; omega), ← parts, ← front, window_append_right,
      List.take_length]
  have moved : conn.down.buf.memmove 0 (n.toNat + 2) (rest.drop n.toNat).length = .ok { conn.down.buf with
      array := splice conn.down.buf.array 0 (window conn.down.buf.array (n.toNat + 2) (rest.drop n.toNat).length) } :=
    Buffer.memmove_ok (by rw [List.length_drop]; omega) (by rw [List.length_drop]; omega)
  rw [behind] at moved
  simp only [methodSelect, second, first, orCrash_ok, ok_bind]
  rw [if_pos ⟨trivial, by omega⟩, left, moved]
  simp only [orCrash_ok, ok_bind, pure_eq_ok, left]

/-- Otherwise the next segment is waited for. -/
theorem methodSelect_waits {bytes : Bytes} (room : conn.down.buf.array.length = bufSize) (holds : conn.down.buf.Holds bytes)
    (pos : 0 < bytes.length) (alone : requestPart .handshake bytes = none) (e : ServerRecv) :
    methodSelect conn e =
      .ok (false, { conn with phase := .request, replies := conn.replies ++ delivered e.greeting [5, 0] }) := by
  obtain ⟨x, -, second⟩ := exists_byte room (show 1 < bufSize by decide)
  obtain ⟨y, -, first⟩ := exists_byte room (show 0 < bufSize by decide)
  have len := holds.len
  have stays : ¬ (y = 5 ∧ x.toNat + 2 < conn.down.buf.len) := by
    rintro ⟨rfl, long⟩
    match bytes with
    | [] => cases pos
    | [_] =>
      rw [List.length_singleton] at len
      omega
    | y' :: x' :: rest =>
      have one : conn.down.buf.byte 1 = .ok x' := holds.byte [y'] x' rest
      have zero : conn.down.buf.byte 0 = .ok y' := holds.byte [] y' (x' :: rest)
      rw [first] at zero
      rw [second] at one
      cases zero
      cases one
      simp only [List.length_cons] at len
      rw [requestPart, if_pos (by omega)] at alone
      cases alone
  simp only [methodSelect, second, first, orCrash_ok, ok_bind]
  rw [if_neg stays]
  rfl

/-- There is nothing for stage 1 in the segment. -/
theorem serverRecvCb_waits (unopened : Unopened C iv conn) (early : conn.phase.remote? = none) (arrived : e.recv = .data segment)
    (alone : requestIn conn segment = none) :
    ∃ conn', serverRecvCb C conn e = .ok conn' ∧ conn.phase = .handshake ∧ conn'.phase = .request ∧ Unopened C iv conn' := by
  have room : bufSize ≤ conn.down.buf.array.length := Nat.le_of_eq unopened.room.symm
  have nothing : requestPart conn.phase segment.bytes = none := Option.map_eq_none_iff.mp alone
  cases phase : conn.phase with
  | stream r =>
    rw [phase] at early
    cases early
  | request =>
    rw [phase] at nothing
    cases nothing
  | handshake =>
    obtain ⟨buf, received, holds, -, size⟩ := Pipe.receive_spec (p := conn.down) segment room
    rw [unopened.room] at size
    rw [phase] at nothing
    have waits : methodSelect { conn with phase := .handshake, down := { conn.down with buf } } e = .ok (false, { conn with
        phase := .request, down := { conn.down with buf }, replies := conn.replies ++ delivered e.greeting [5, 0] }) :=
      methodSelect_waits size holds segment.pos nothing e
    refine ⟨{ conn with
      phase := .request, down := { conn.down with buf }, replies := conn.replies ++ delivered e.greeting [5, 0] }, ?_, rfl, rfl,
      unopened.ctx, size, unopened.header⟩
    simp only [serverRecvCb, arrived, phase, received, ok_bind]
    rw [waits, ok_bind]
    rfl

/-- Stage 1 reads what is there for it. -/
theorem serverRecvCb_reads (unopened : Unopened C iv conn) (arrived : e.recv = .data segment)
    (found : requestIn conn segment = some buf) :
    ∃ mid, serverRecvCb C conn e = request C mid e ∧ mid.down.buf = buf ∧ Unopened C iv mid := by
  have room : bufSize ≤ conn.down.buf.array.length := Nat.le_of_eq unopened.room.symm
  have received := Pipe.receive_eq (p := conn.down) segment room
  obtain ⟨-, -, -, size⟩ := requestIn_holds unopened.room found
  obtain ⟨part, part_, rfl⟩ := Option.map_eq_some_iff.mp found
  cases phase : conn.phase with
  | stream r =>
    rw [phase] at part_
    cases part_
  | request =>
    rw [phase] at part_
    cases part_
    have twice : splice (splice conn.down.buf.array 0 segment.bytes) 0 segment.bytes = splice conn.down.buf.array 0 segment.bytes :=
      splice_splice_same rfl (by rw [unopened.room, Nat.zero_add]; exact segment.le)
    dsimp only at size
    rw [twice] at size ⊢
    refine ⟨{ conn with down := { conn.down with buf := { conn.down.buf with
      array := splice conn.down.buf.array 0 segment.bytes, len := segment.bytes.length } } }, ?_, rfl, unopened.ctx, size,
      unopened.header⟩
    simp only [serverRecvCb, arrived, phase, received, ok_bind]
    rfl
  | handshake =>
    rw [phase] at part_
    obtain ⟨buf, received', holds, -, -⟩ := Pipe.receive_spec (p := conn.down) segment room
    rw [received] at received'
    cases received'
    obtain ⟨n, rest, bytes, more, rfl⟩ := requestPart_handshake part_
    have selected : methodSelect { conn with
        phase := .handshake
        down := { conn.down with buf := { conn.down.buf with
          array := splice conn.down.buf.array 0 segment.bytes, len := segment.bytes.length } } } e = .ok (true, { conn with
        phase := .request, replies := conn.replies ++ delivered e.greeting [5, 0]
        down := { conn.down with buf := { conn.down.buf with
          len := (rest.drop n.toNat).length
          array := splice (splice conn.down.buf.array 0 segment.bytes) 0 (rest.drop n.toNat) } } }) :=
      methodSelect_more ⟨holds.fits, holds.bytes.trans bytes⟩ more e
    refine ⟨{ conn with
      phase := .request, replies := conn.replies ++ delivered e.greeting [5, 0]
      down := { conn.down with buf := { conn.down.buf with
        len := (rest.drop n.toNat).length
        array := splice (splice conn.down.buf.array 0 segment.bytes) 0 (rest.drop n.toNat) } } }, ?_, rfl, unopened.ctx, size,
      unopened.header⟩
    simp only [serverRecvCb, arrived, phase, received, ok_bind]
    rw [selected, ok_bind]
    rfl

/-! ## Until there is a remote -/

theorem openRemote_stream {conn' : Conn P} (at_ : conn.phase = .stream remote) (off : remote.connected = false)
    (opened : openRemote C conn remote e = .ok conn') : conn'.phase.remote? ≠ none := by
  intro none_
  unfold openRemote at opened
  split at opened
  · cases opened
  · dsimp only at opened
    split at opened
    · split at opened
      · cases opened
      · obtain ⟨on, -⟩ := remoteSendCb_opening off opened
        rw [Conn.connected, none_] at on
        cases on
      · cases opened
        cases none_
    · split at opened
      · cases opened
      · cases opened
        dsimp only at none_
        rw [at_] at none_
        cases none_
      · obtain ⟨data, -, opened⟩ := bind_eq_ok.mp opened
        cases opened
        cases none_

theorem relayUp_stream {conn' : Conn P} (at_ : conn.phase = .stream remote) (relayed : relayUp C conn remote e = .ok conn') :
    conn'.phase.remote? ≠ none := by
  obtain ⟨⟨r, mid⟩, encrypted, relayed⟩ := bind_eq_ok.mp relayed
  obtain ⟨at', -, -, -⟩ := encryptUp_cases at_ encrypted
  dsimp only at relayed
  split at relayed
  · obtain ⟨up, -, relayed⟩ := bind_eq_ok.mp relayed
    cases relayed
    dsimp only
    rw [at']
    exact nofun
  · rename_i off
    exact openRemote_stream at' (Bool.eq_false_iff.mpr off) relayed

/-- A connection that has no remote is as it was accepted, but for its bytes. A segment either
completes no request, so that the buffer waits, or completes one and opens the remote; the other
callbacks need a remote, but for the one that drains the answers. -/
theorem fire_unopened {conn' : Conn P} {e : Event} (unopened : conn.phase.remote? = none → Unopened C iv conn)
    (fired : fire C conn e = .ok conn') (early : conn'.phase.remote? = none) : Unopened C iv conn' := by
  cases e with
  | serverRecv e =>
    cases arrived : e.recv with
    | eof => simp only [fire, serverRecvCb, arrived] at fired; cases fired
    | failed => simp only [fire, serverRecvCb, arrived] at fired; cases fired
    | wouldBlock =>
      simp only [fire, serverRecvCb, arrived, pure_eq_ok, Except.ok.injEq] at fired
      subst fired
      exact unopened early
    | data segment =>
      cases before : conn.phase.remote? with
      | some r =>
        have at_ : conn.phase = .stream r := by
          cases phase : conn.phase with
          | stream r' =>
            rw [phase] at before
            cases before
            rfl
          | _ =>
            rw [phase] at before
            cases before
        simp only [fire, serverRecvCb, arrived, at_] at fired
        obtain ⟨up, -, relayed⟩ := bind_eq_ok.mp fired
        exact absurd early (relayUp_stream rfl relayed)
      | none =>
        cases found : requestIn conn segment with
        | none =>
          obtain ⟨conn'', waits, -, -, still⟩ := serverRecvCb_waits (unopened before) before arrived found
          rw [fire, waits] at fired
          cases fired
          exact still
        | some buf =>
          obtain ⟨mid, reads, -, -⟩ := serverRecvCb_reads (unopened before) arrived found
          rw [fire, reads] at fired
          obtain ⟨⟨r, opened⟩, handled, relayed⟩ := bind_eq_ok.mp fired
          obtain ⟨-, at_, -⟩ := handleRequest_cases handled
          exact absurd early (relayUp_stream at_ relayed)
  | serverSend send =>
    obtain ⟨down, drained, fired⟩ := bind_eq_ok.mp fired
    cases fired
    have before := unopened early
    refine ⟨before.ctx, ?_, before.header⟩
    obtain ⟨-, ⟨-, rfl⟩ | ⟨s, -, -, rfl⟩ | ⟨-, rfl⟩⟩ := Pipe.drain_cases drained
    · exact before.room
    · exact before.room
    · exact before.room
  | remoteRecv e =>
    obtain ⟨r, found, fired⟩ := bind_eq_ok.mp fired
    unfold remoteRecvCb at fired
    dsimp only at fired
    split at fired
    · cases fired
    · cases fired
    · cases fired
      cases early
    · split at fired
      · obtain ⟨down, -, fired⟩ := bind_eq_ok.mp fired
        obtain ⟨down', -, fired⟩ := bind_eq_ok.mp fired
        cases fired
        cases early
      · obtain ⟨relayed, -, fired⟩ := bind_eq_ok.mp fired
        cases fired
        cases early
  | remoteSend peer send =>
    obtain ⟨r, found, fired⟩ := bind_eq_ok.mp fired
    rw [orCrash_eq_ok, deref_eq_ok] at found
    cases on : r.connected with
    | true =>
      obtain ⟨same, -⟩ := remoteSendCb_connected on fired
      rw [same, found] at early
      cases early
    | false =>
      obtain ⟨on', -⟩ := remoteSendCb_opening on fired
      rw [Conn.connected, early] at on'
      cases on'
  | remoteTimeout => cases fired

theorem unopened_of_reach (reach : (machine C).Reach (fun _ _ => True) (acceptCb C iv) conn) (early : conn.phase.remote? = none) :
    Unopened C iv conn := by
  refine reach.invariant (fun conn => conn.phase.remote? = none → Unopened C iv conn) ?_ ?_ early
  · exact fun _ => ⟨rfl, length_balloc _ _, rfl⟩
  · intro conn e conn' unopened _ _ fired early'
    exact fire_unopened unopened fired early'

/-! ## Every first segment -/

/-- How the callback may end: the connection is closed; there is no request yet and the next
segment is waited for; or the relay begins with a header out of a request that lies in the
segment. -/
inductive Handled (conn : Conn P) (segment : Segment) : Except Stop (Conn P) → Prop where
  | closes (why : Closing) : Handled conn segment (.error (.closed why))
  | waits (conn' : Conn P) (alone : requestIn conn segment = none) (phase : conn'.phase = .request) (header : conn'.header = none) :
      Handled conn segment (.ok conn')
  | accepts (conn' : Conn P) (front : Bytes) (a c : UInt8) (h : Header) (rest : Bytes) (valid : h.Valid)
      (bytes : segment.bytes = front ++ ([a, 1, c] ++ h.encode false ++ rest)) (greeting : conn.phase = .request → front = [])
      (opens : Opens (some (h.encode false)) conn') : Handled conn segment (.ok conn')

theorem Handled.not_crashes {result : Except Stop (Conn P)} (handled : Handled conn segment result) : ¬ Crashes result := by
  rintro ⟨f, rfl⟩
  cases handled

/-- What is not fine leaves the memory. -/
theorem request_not_fine (ivLen : iv.length = C.E.ivLen) (before : Unopened C iv conn) (fits : conn.down.buf.Fits)
    (no : ¬ Fine C e conn.down.buf) : Crashes (request C conn e) := by
  rw [Fine, Classical.not_imp] at no
  obtain ⟨announced, no⟩ := no
  by_cases whole : ∃ (a c : UInt8) (h : Header) (rest : Bytes), h.Valid ∧ conn.down.buf.bytes = [a, 1, c] ++ h.encode false ++ rest
  · obtain ⟨a, c, h, rest, valid, bytes⟩ := whole
    exact request_crashes ivLen before valid ⟨fits, bytes⟩ fun makes => no ⟨a, c, h, rest, valid, bytes, makes⟩
  · exact request_cut before.room fits announced whole e

/-- As long as a connection has no remote, a segment is handled safely exactly if the request
that stage 1 finds in it, if any, is fine. -/
theorem serverRecvCb_handled_iff (C : Config P) (lawful : P.evp.Lawful) (ivLen : iv.length = C.E.ivLen)
    (reach : (machine C).Reach (fun _ _ => True) (acceptCb C iv) conn) (early : conn.phase.remote? = none) (e : ServerRecv)
    {segment : Segment} (arrived : e.recv = .data segment) :
    Handled conn segment (serverRecvCb C conn e) ↔ ∀ buf, requestIn conn segment = some buf → Fine C e buf := by
  have unopened := unopened_of_reach reach early
  constructor
  · intro handled buf found
    obtain ⟨part, -, holds, -⟩ := requestIn_holds unopened.room found
    obtain ⟨mid, reads, rfl, before⟩ := serverRecvCb_reads unopened arrived found
    by_contra no
    rw [reads] at handled
    exact handled.not_crashes (request_not_fine ivLen before holds.fits no)
  · intro fine
    cases found : requestIn conn segment with
    | none =>
      obtain ⟨conn', waits, -, phase, still⟩ := serverRecvCb_waits unopened early arrived found
      rw [waits]
      exact .waits conn' found phase still.header
    | some buf =>
      obtain ⟨part, part_, holds, -⟩ := requestIn_holds unopened.room found
      obtain ⟨front, bytes, greeting⟩ := requestPart_suffix part_
      obtain ⟨mid, reads, rfl, before⟩ := serverRecvCb_reads unopened arrived found
      rw [reads]
      by_cases announced : Announces mid.down.buf.array
      · obtain ⟨a, c, h, rest, valid, whole, makes⟩ := fine _ found announced
        rcases request_settles lawful ivLen before valid ⟨holds.fits, whole⟩ makes with ⟨why, closed⟩ | ⟨conn', opened, opens⟩
        · rw [closed]
          exact .closes why
        · rw [opened]
          exact .accepts conn' front a c h rest valid (by rw [bytes, ← whole, holds.bytes]) greeting opens
      · obtain ⟨why, refused⟩ := request_refused (C := C) before.room announced e
        rw [refused]
        exact .closes why

end

end

/-- A greeting and a request for 10.0.0.2:80 in one segment. -/
def wholeRequest : Segment where
  bytes := [5, 1, 0, 5, 1, 0, 1, 10, 0, 0, 2, 0, 80]

/-- The same, cut behind the first byte of the address. -/
def cutRequest : Segment where
  bytes := [5, 1, 0, 5, 1, 0, 1, 10]

theorem wholeRequest_handled :
    Handled (acceptCb aclConfig []) wholeRequest (serverRecvCb aclConfig (acceptCb aclConfig []) { recv := .data wholeRequest }) := by
  refine (serverRecvCb_handled_iff aclConfig rc4_lawful rfl .refl rfl { recv := .data wholeRequest } rfl).mpr ?_
  intro buf found
  obtain rfl := Option.some.inj found
  refine fun _ => ⟨5, 0, { addr := .ipv4 [10, 0, 0, 2], port := [0, 80] }, [], by decide, by decide +kernel, ?_⟩
  intro _ auth
  cases auth

/-- A request that has not arrived whole makes ss-local leave its buffer. -/
theorem cutRequest_crashes :
    serverRecvCb aclConfig (acceptCb aclConfig []) { recv := .data cutRequest } = .error (.crashed .outOfBounds) ∧
      ¬ Handled (acceptCb aclConfig []) cutRequest
        (serverRecvCb aclConfig (acceptCb aclConfig []) { recv := .data cutRequest }) := by
  have crashed : serverRecvCb aclConfig (acceptCb aclConfig []) { recv := .data cutRequest } = .error (.crashed .outOfBounds) :=
    Machine.eq_error_of_stopsWith (by decide +kernel)
  refine ⟨crashed, fun handled => handled.not_crashes ⟨.outOfBounds, crashed⟩⟩

end Shadowsocks.Local
