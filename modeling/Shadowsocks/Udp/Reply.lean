import Shadowsocks.Udp.Destination
import Shadowsocks.Udp.Local

/-!
# What a client makes of a reply

ss-server puts a header in front of what a destination sends back, and the relay of the
client decrypts the packet and takes the header off. In a session for names the header is
the one of the first request; a flag in it makes the client look for a tag that no reply
has (`reads_seal`), and it may be of another name than the one that was resolved last.
-/

namespace Shadowsocks.Udp.Remote
set_option autoImplicit false
open Lib

/-- Whatever buffer the packet is in, the first half of the client's `remote_recv_cb` takes
it, and finds the header and the payload. -/
def Reads {P : Platform} (E : Encryptor P) (text : AddrText) (packet header payload : Bytes) : Prop :=
  ∀ buf tmp : Buffer, buf.Holds packet → ∃ buf' p tmp', Local.openReply E text buf tmp = .ok (some (buf', p), tmp') ∧
    buf'.bytes.take p.len = header ∧ buf'.bytes.drop p.len = payload

section
variable {P : Platform} {E : Encryptor P} {text : AddrText}

/-! ## The client -/

/-- A reply that the client opens has a header. -/
theorem openReply_some {buf buf' tmp tmp' : Buffer} {packet : Bytes} {p : Parsed} (lawful : P.evp.Lawful) (holds : buf.Holds packet)
    (small : packet.length < 2 ^ 32) (done : Local.openReply E text buf tmp = .ok (some (buf', p), tmp')) :
    ∃ bs t h, openPacket E false packet = some bs ∧ buf'.Holds bs ∧ Wrote t h (bs.take p.len) := by
  obtain ⟨r, decrypted, opened, closed, -⟩ := ssDecryptAll_spec (E := E) buf tmp false lawful holds.fits
    (by rw [holds.len]; omega) (show maxUdpPacketSize < 2 ^ 62 by decide)
  rw [holds.bytes] at opened closed
  rw [Local.openReply, decrypted, ok_bind] at done
  cases eq : openPacket E false packet with
  | none =>
    rw [if_pos (by rw [closed eq]; decide)] at done
    cases done
  | some bs =>
    obtain ⟨ret, holds', -⟩ := opened bs eq
    rw [if_neg (by simp [ret])] at done
    obtain ⟨⟨flag, parsed⟩, read, done⟩ := bind_eq_ok.mp done
    cases parsed with
    | none => cases done
    | some p' =>
      cases done
      obtain ⟨t, h, wrote, -, -, inside, -⟩ := parse_some read
      have len := holds'.len
      rw [holds'.window (by omega), ← take_eq_window] at wrote
      exact ⟨bs, t, h, rfl, holds', wrote⟩

/-- The header that the server wrote is the one that is cut off. -/
theorem openReply_header (text : AddrText) {buf : Buffer} {packet payload bs : Bytes} {t : UInt8} {h : Header} (lawful : P.evp.Lawful)
    (holds : buf.Holds packet) (small : packet.length < 2 ^ 32) (wrote : Wrote t h bs)
    (opened : openPacket E false packet = some (bs ++ payload)) (tmp : Buffer) :
    ∃ buf' tmp', Local.openReply E text buf tmp = .ok (some (buf', headerParsed text h), tmp') ∧ buf'.Holds (bs ++ payload) ∧
      (headerParsed text h).len = bs.length := by
  obtain ⟨r, decrypted, taken, -, -⟩ := ssDecryptAll_spec (E := E) buf tmp false lawful holds.fits
    (by rw [holds.len]; omega) (show maxUdpPacketSize < 2 ^ 62 by decide)
  rw [holds.bytes] at taken
  obtain ⟨ret, holds', -⟩ := taken _ opened
  have size := headerParsed_len text wrote.valid
  have len : (headerParsed text h).len = bs.length := by
    rw [wrote.bytes, List.length_cons, List.length_append, wrote.valid.2, size]
    omega
  have room := holds'.room
  have used := holds'.len
  rw [List.length_append] at room used
  refine ⟨r.buf, r.tmp, ?_, holds', len⟩
  have front : window r.buf.array 0 (headerParsed text h).len = bs := by
    rw [holds'.window (by rw [List.length_append]; omega), len, window_append_left (by omega), window_zero_length]
  rw [Local.openReply, decrypted, ok_bind, if_neg (by simp [ret]),
    parse_header (t := t) (h := h) (by rw [front]; exact wrote) (by omega) (by omega), ok_bind]
  rfl

/-! ## The packets of ss-server -/

/-- A packet that was encrypted without a tag is read as what it was made of, unless its header
asks for a tag. Then a tag would be cut off the end, and what is left is shorter than the payload
that was sealed. -/
theorem reads_seal (lawful : P.evp.Lawful) (made : E.Initialised) {iv bs data header payload : Bytes} (ivLen : iv.length = E.ivLen)
    {t : UInt8} {h : Header} (wrote : Wrote t h bs) (small : bs.length + data.length < 2 ^ 31) (long : data.length ≤ payload.length) :
    Reads E text (sealPacket E false iv (bs ++ data)) header payload ↔
      (E.method = .table ∨ flagged bs = false) ∧ header = bs ∧ payload = data := by
  have some_ : bs ++ data ≠ [] := by
    rw [wrote.bytes]
    exact List.cons_ne_nil _ _
  have first : flagged (bs ++ data) = flagged bs := by rw [wrote.bytes]; rfl
  have opened := openPacket_sealPacket lawful (fun _ => made) ivLen some_
  rw [first] at opened
  have ivSmall := E.ivLen_le
  have short : (sealPacket E false iv (bs ++ data)).length < 2 ^ 32 := by
    unfold sealPacket
    split
    · rw [List.length_map, List.length_append]
      omega
    · rw [if_neg Bool.false_ne_true, length_ciphertext E lawful, List.length_append]
      omega
  constructor
  · intro reads
    have packet : ({ len := (sealPacket E false iv (bs ++ data)).length, array := sealPacket E false iv (bs ++ data) } : Buffer).Holds
        (sealPacket E false iv (bs ++ data)) := ⟨Nat.le_refl _, window_zero_length _⟩
    obtain ⟨buf', p, tmp', done, rfl, rfl⟩ := reads _ {} packet
    obtain ⟨bs', t', h', took, holds', wrote'⟩ := openReply_some lawful packet short done
    rw [holds'.bytes] at long ⊢
    by_cases tagged : E.method ≠ .table ∧ flagged bs = true
    · -- a tag would be cut off the end of the payload
      rw [if_pos tagged] at opened
      have less := openTagged_shorter (opened.symm.trans took)
      obtain ⟨rest, whole⟩ := openTagged_prefix (opened.symm.trans took)
      have front : bs'.take p.len ++ (bs'.drop p.len ++ rest) = bs ++ data := by
        rw [← List.append_assoc, List.take_append_drop, whole]
      obtain ⟨-, -, cut⟩ := wrote'.prefix_unique wrote front
      have lens := congrArg List.length cut
      have total := congrArg List.length whole
      rw [List.length_append] at lens total
      omega
    · rw [if_neg tagged] at opened
      have same : bs ++ data = bs' := Option.some.inj (opened.symm.trans took)
      have whole : bs'.take p.len ++ bs'.drop p.len = bs ++ data := by rw [List.take_append_drop, same]
      obtain ⟨header, -, payload⟩ := wrote'.prefix_unique wrote whole
      refine ⟨?_, header, payload⟩
      by_contra both
      obtain ⟨table, flag⟩ := not_or.mp both
      exact tagged ⟨table, Bool.not_eq_false _ ▸ flag⟩
  · rintro ⟨clear, rfl, rfl⟩ buf tmp holds
    rw [if_neg] at opened
    · obtain ⟨buf', tmp', done, holds', len⟩ := openReply_header text lawful holds short wrote opened tmp
      refine ⟨buf', _, tmp', done, ?_, ?_⟩
      · rw [holds'.bytes, len, List.take_left]
      · rw [holds'.bytes, len, List.drop_left]
    · rintro ⟨table, flag⟩
      rcases clear with same | unflagged
      · exact table same
      · rw [unflagged] at flag
        cases flag

end

section
variable {P : Platform} {C : Config P} {s s' : State}

/-- The header in front of a reply of `D`. -/
def replyHeader (ctx : RemoteCtx) (D : Inet) : Bytes :=
  if ctx.af = afInet ∨ ctx.af = afInet6 then constructUdprealyHeader D.addr else ctx.addrHeader

/-- `reply` seals the header and the payload. -/
theorem reply_seals (lawful : P.evp.Lawful) (ctx : RemoteCtx) (encTmp : Buffer) (D : Inet) (datagram : Bytes) (stale : Nat → UInt8)
    {iv : Bytes} (ivLen : iv.length = C.E.ivLen) (small : (replyHeader ctx D).length ≤ 2 ^ 16) :
    ∃ encTmp', reply C ctx encTmp D datagram stale iv =
      .ok (some (sealPacket C.E false iv (replyHeader ctx D ++ datagram.take maxUdpPacketSize)), encTmp') := by
  obtain ⟨buf, received, holds, -⟩ := recvFrom_spec stale datagram
  have short : (datagram.take maxUdpPacketSize).length ≤ 65507 := List.length_take_le _ _
  obtain ⟨buf', framed, holds'⟩ := prepend_spec P.junk holds (replyHeader ctx D) (by omega)
  have len := holds'.len
  rw [List.length_append] at len
  obtain ⟨r, sealed, ret, out, -, -⟩ := ssEncryptAll_spec (E := C.E) buf' encTmp false lawful holds'.fits ivLen (by omega)
    (show maxUdpPacketSize < 2 ^ 62 by decide) nofun
  rw [holds'.bytes] at out
  refine ⟨r.tmp, ?_⟩
  rw [reply, received, ok_bind]
  dsimp only
  rw [show (if ctx.af = afInet ∨ ctx.af = afInet6 then constructUdprealyHeader D.addr else ctx.addrHeader) = replyHeader ctx D from
    rfl, framed, ok_bind, sealed, ok_bind, if_neg (by simp [ret]), out.readAll]
  rfl

/-- The header made of an address names it, and carries no flag. -/
theorem construct_names (C : Config P) (D : Inet) :
    ∃ t h, Wrote t h (constructUdprealyHeader D.addr) ∧ named C h = D.addr.endpoint ∧
      flagged (constructUdprealyHeader D.addr) = false ∧ ∀ name, h.addr ≠ .domain name := by
  have size := D.addr.size
  have two : D.addr.port.length = 2 := length_window (by omega)
  rcases D.inet with four | six
  · refine ⟨1, ⟨.ipv4 D.addr.sinAddr, D.addr.port⟩, ⟨⟨length_window (by omega), two⟩, (show (1 : UInt8) &&& 0xf = 1 by decide), ?_⟩, ?_, ?_,
      fun name no => by cases no⟩
    · rw [constructUdprealyHeader, if_pos four]
      rfl
    · rw [Sockaddr.endpoint, if_pos four]
      rfl
    · rw [constructUdprealyHeader, if_pos four]
      exact (show ((1 : UInt8) &&& 0x10 != 0) = false by decide)
  · have other : D.addr.family ≠ afInet := by rw [six]; decide
    refine ⟨4, ⟨.ipv6 D.addr.sin6Addr, D.addr.port⟩, ⟨⟨length_window (by omega), two⟩, (show (4 : UInt8) &&& 0xf = 4 by decide), ?_⟩, ?_, ?_,
      fun name no => by cases no⟩
    · rw [constructUdprealyHeader, if_neg other, if_pos six]
      rfl
    · rw [Sockaddr.endpoint, if_neg other, if_pos six]
      rfl
    · rw [constructUdprealyHeader, if_neg other, if_pos six]
      exact (show ((4 : UInt8) &&& 0x10 != 0) = false by decide)

/-! ## The headers of sessions -/

/-- The bytes are a header with a name that the client has used. -/
def Asked (s : State) (src : Sockaddr) (bs : Bytes) : Prop :=
  (∃ t name port, Wrote t ⟨.domain name, port⟩ bs) ∧ (src, bs) ∈ s.asked

/-- Sessions and queries for names have headers that their clients have used. -/
structure Kin (s : State) : Prop where
  family : ∀ id ctx, s.sessions.heap.cell id = some ctx → ctx.af = afUnspec ∨ ctx.af = afInet ∨ ctx.af = afInet6
  session : ∀ id ctx, s.sessions.heap.cell id = some ctx → ctx.af = afUnspec → Asked s ctx.srcAddr ctx.addrHeader
  query : ∀ q ∈ s.pending, Asked s q.srcAddr q.addrHeader

theorem kin_start (C : Config P) : Kin (start C) where
  family _ _ here := by cases here
  session _ _ here := by cases here
  query _ mem := by cases mem

/-- What has been asked stays asked. -/
theorem Asked.mono {src : Sockaddr} {bs : Bytes} (asked : Asked s src bs) (more : ∀ x ∈ s.asked, x ∈ s'.asked) : Asked s' src bs :=
  ⟨asked.1, more _ asked.2⟩

/-- Nothing new is there. -/
theorem Kin.of_older (kin : Kin s) (older : ∀ id ctx, s'.sessions.heap.cell id = some ctx → ∃ ctx', s.sessions.heap.cell id = some ctx' ∧
      ctx.af = ctx'.af ∧ ctx.srcAddr = ctx'.srcAddr ∧ ctx.addrHeader = ctx'.addrHeader)
    (pending : ∀ q ∈ s'.pending, q ∈ s.pending) (asked : ∀ x ∈ s.asked, x ∈ s'.asked) : Kin s' where
  family id ctx here := by
    obtain ⟨ctx', there, af, -, -⟩ := older id ctx here
    rw [af]
    exact kin.family id ctx' there
  session id ctx here unspec := by
    obtain ⟨ctx', there, af, src, header⟩ := older id ctx here
    rw [src, header]
    exact (kin.session id ctx' there (af ▸ unspec)).mono asked
  query q mem := (kin.query q (pending q mem)).mono asked

/-- Sessions that are kept keep what they were made for. -/
theorem Kin.kept (kin : Kin s) {sessions : Sessions} (kept : Sessions.Kept maxUdpConnNum s.sessions sessions) :
    Kin { s with sessions } :=
  kin.of_older (fun _ ctx here => ⟨ctx, kept.cell ▸ here, rfl, rfl, rfl⟩) (fun _ mem => mem) fun _ mem => mem

/-- A new session has the family of its request, or none. -/
theorem Kin.entered (kin : Kin s) {ctx : RemoteCtx} {sessions : Sessions}
    (entered : Sessions.Entered maxUdpConnNum s.sessions ctx sessions) (family : ctx.af = afUnspec ∨ ctx.af = afInet ∨ ctx.af = afInet6)
    (asked : ctx.af = afUnspec → Asked s ctx.srcAddr ctx.addrHeader) : Kin { s with sessions } where
  family _ ctx' here := by
    rcases entered.cell here with old | ⟨-, rfl⟩
    · exact kin.family _ ctx' old
    · exact family
  session _ ctx' here unspec := by
    rcases entered.cell here with old | ⟨-, rfl⟩
    · exact kin.session _ ctx' old unspec
    · exact asked unspec
  query := kin.query

/-- A session is told which name was answered. -/
theorem Kin.modify (kin : Kin s) (id : Nat) (addr : Sockaddr) (addrHeader : Bytes) :
    Kin { s with sessions := s.sessions.modify id fun ctx => { ctx with dstAddr := addr, answered := addrHeader } } := by
  refine kin.of_older (fun j ctx here => ?_) (fun _ mem => mem) fun _ mem => mem
  by_cases same : j = id
  · subst same
    obtain ⟨ctx', there, rfl⟩ := Option.map_eq_some_iff.mp (Heap.cell_modify_self.symm.trans here)
    exact ⟨ctx', there, rfl, rfl, rfl⟩
  · exact ⟨ctx, (Heap.cell_modify_of_ne same).symm.trans here, rfl, rfl, rfl⟩

theorem Kin.send (kin : Kin s) {addrHeader payload : Bytes} {dst : Sockaddr} : Kin (s.send addrHeader payload dst) :=
  kin.of_older (fun _ ctx here => ⟨ctx, here, rfl, rfl, rfl⟩) (fun _ mem => mem) fun _ mem => mem

theorem Kin.ask (kin : Kin s) {src : Sockaddr} {r : Request} {remoteCtx : Option Nat} {io : Io} (asked : Asked s src r.addrHeader) :
    Kin (s.ask src r remoteCtx io) := by
  unfold State.ask
  split
  · refine { kin with query := fun q mem => ?_ }
    rcases List.mem_append.mp mem with old | new
    · exact kin.query q old
    · cases List.mem_singleton.mp new
      exact asked
  · exact kin

/-- A request is routed over its own session. -/
theorem Routed.kin {src : Sockaddr} {r : Request} {io : Io} (routed : Routed s src r io s') (kin : Kin s)
    (asked : ¬ r.dst.IsInet → Asked s src r.addrHeader) : Kin s' := by
  cases routed with
  | literal _ _ _ kept => exact (kin.kept kept).send
  | asks _ _ _ kept _ _ _ name => exact (kin.kept kept).ask (asked name)
  | again _ _ _ kept => exact (kin.kept kept).send
  | noSocket => exact kin
  | opened sessions inet _ _ entered =>
    refine (kin.entered entered (.inr inet) fun unspec => ?_).send
    rcases inet with four | six
    · exact absurd (four.symm.trans unspec) (by decide)
    · exact absurd (six.symm.trans unspec) (by decide)
  | unsent _ _ kept => exact (kin.kept kept).send
  | queries name => exact kin.ask (asked name)

/-- A query belongs to the one who asked it. -/
theorem Resolved.kin {q : Query} {addr : Sockaddr} {io : Io} (resolved : Resolved s q addr io s') (kin : Kin s)
    (asked : Asked s q.srcAddr q.addrHeader) : Kin s' := by
  cases resolved with
  | updated id ctx sessions kept => exact ((kin.kept kept).modify id addr q.addrHeader).send
  | noSocket => exact kin
  | opened sessions _ _ entered => exact (kin.entered entered (.inl rfl) fun _ => asked).send
  | unsent _ kept => exact (kin.kept kept).send

/-- The header of a request that is not for an address has a name. -/
theorem receive_asked {auth auth' : Bool} {decTmp decTmp' : Buffer} {stale : Nat → UInt8} {datagram : Bytes} {r : Request}
    (received : receive C auth decTmp stale datagram = .ok (auth', decTmp', some r)) (name : ¬ r.dst.IsInet) :
    ∃ t text port, Wrote t ⟨.domain text, port⟩ r.addrHeader := by
  obtain ⟨t, ⟨addr, port⟩, wrote, eq⟩ := receive_some received
  rw [eq] at name
  cases addr with
  | ipv4 => exact absurd (.inl rfl) name
  | domain text => exact ⟨t, text, port, wrote⟩
  | ipv6 => exact absurd (.inr rfl) name

/-- Every event keeps sessions and requests together. -/
theorem Fired.kin {e : Event} (fired : Fired C s e s') (kin : Kin s) : Kin s' := by
  cases fired with
  | dropped => exact kin.of_older (fun _ ctx here => ⟨ctx, here, rfl, rfl, rfl⟩) (fun _ mem => mem) fun _ mem => mem
  | routed src datagram stale io auth decTmp r received s' outcome =>
    refine outcome.kin ?_ fun name => ⟨receive_asked received name, List.mem_append_right _ (List.mem_singleton.mpr rfl)⟩
    exact kin.of_older (fun _ ctx here => ⟨ctx, here, rfl, rfl, rfl⟩) (fun _ mem => mem) fun _ mem => List.mem_append_left _ mem
  | unanswered =>
    exact kin.of_older (fun _ ctx here => ⟨ctx, here, rfl, rfl, rfl⟩) (fun _ mem => List.mem_of_mem_eraseIdx mem) fun _ mem => mem
  | answered i io q pending s' outcome =>
    refine outcome.kin ?_ (kin.query q (List.mem_of_getElem? pending))
    exact kin.of_older (fun _ ctx here => ⟨ctx, here, rfl, rfl, rfl⟩) (fun _ mem => List.mem_of_mem_eraseIdx mem) fun _ mem => mem
  | replied => exact kin.of_older (fun _ ctx here => ⟨ctx, here, rfl, rfl, rfl⟩) (fun _ mem => mem) fun _ mem => mem
  | expired id ctx here sessions _ heap =>
    refine kin.of_older (fun j ctx' there => ⟨ctx', ?_, rfl, rfl, rfl⟩) (fun _ mem => mem) fun _ mem => mem
    dsimp only at there
    rw [heap] at there
    by_cases same : j = id
    · rw [same, Heap.cell_free_self] at there
      cases there
    · rwa [Heap.cell_free_of_ne same] at there

theorem reach_kin {allowed : State → Event → Prop} (run : (machine C).Reach allowed (start C) s) : Kin s := by
  refine (run.invariant (fun s => s.sessions.Sound maxUdpConnNum ∧ Kin s) ⟨Sessions.sound_init _, kin_start C⟩ ?_).2
  rintro s e s' ⟨sound, kin⟩ on - done
  have fired := fire_cases sound on done
  exact ⟨fired.sound sound, fired.kin kin⟩

/-! ## Replies -/

/-- The header names `D`: its address, or a name that the client has used and that is
resolved to it. -/
def NamesOrigin (C : Config P) (s : State) (src : Sockaddr) (header : Bytes) (D : Inet) : Prop :=
  ∃ t h, Wrote t h header ∧ named C h = D.addr.endpoint ∧ ((∃ name, h.addr = .domain name) → (src, header) ∈ s.asked)

/-- The client reads the reply of `D`, byte for byte, with a header that names it. -/
def Faithful (C : Config P) (s : State) (ctx : RemoteCtx) (D : Inet) (datagram : Bytes) (stale : Nat → UInt8) (iv : Bytes)
    (text : AddrText) : Prop :=
  ∃ packet encTmp header, reply C ctx s.encTmp D datagram stale iv = .ok (some packet, encTmp) ∧
    Reads C.E text packet header datagram ∧ NamesOrigin C s ctx.srcAddr header D

/-- A session's header is one that was written. -/
theorem Kin.replyHeader (kin : Kin s) {id : Nat} {ctx : RemoteCtx} (here : s.sessions.heap.cell id = some ctx) (C : Config P)
    (D : Inet) :
    ∃ t h, Wrote t h (replyHeader ctx D) ∧
      (ctx.af ≠ afUnspec → named C h = D.addr.endpoint ∧ flagged (Remote.replyHeader ctx D) = false ∧ ∀ name, h.addr ≠ .domain name) ∧
      (ctx.af = afUnspec → Remote.replyHeader ctx D = ctx.addrHeader ∧ (ctx.srcAddr, ctx.addrHeader) ∈ s.asked) := by
  unfold Remote.replyHeader
  by_cases unspec : ctx.af = afUnspec
  · obtain ⟨⟨t, name, port, wrote⟩, asked⟩ := kin.session id ctx here unspec
    rw [if_neg (by rw [unspec]; decide)]
    exact ⟨t, _, wrote, fun other => absurd unspec other, fun _ => ⟨rfl, asked⟩⟩
  · have inet : ctx.af = afInet ∨ ctx.af = afInet6 := by
      rcases kin.family id ctx here with same | inet
      · exact absurd same unspec
      · exact inet
    obtain ⟨t, h, wrote, names, clear, literal⟩ := construct_names C D
    rw [if_pos inet]
    exact ⟨t, h, wrote, fun _ => ⟨names, clear, literal⟩, fun same => absurd same unspec⟩

/-- A reply is read by the client, and names its origin, exactly if it fits into the buffer
and, in a session for names, the header of the first request does not ask for a tag and
is of the name that is resolved to the origin. -/
theorem reply_faithful (C : Config P) (lawful : P.evp.Lawful) (made : C.E.Initialised)
    (run : (machine C).Reach (fun _ _ => True) (start C) s) {id : Nat} {ctx : RemoteCtx}
    (here : s.sessions.heap.cell id = some ctx) (D : Inet) (datagram : Bytes) (stale : Nat → UInt8) {iv : Bytes}
    (ivLen : iv.length = C.E.ivLen) (text : AddrText) :
    Faithful C s ctx D datagram stale iv text ↔
      datagram.length ≤ maxUdpPacketSize ∧ (ctx.af = afUnspec →
        (C.E.method = .table ∨ flagged ctx.addrHeader = false) ∧ Names C ctx.addrHeader D.addr.endpoint) := by
  obtain ⟨t, h, wrote, literal, unspec⟩ := (reach_kin run).replyHeader here C D
  have size : (replyHeader ctx D).length ≤ 2 ^ 10 := by
    have body := wrote.valid.1.length_body
    have port := wrote.valid.2
    rw [wrote.bytes, List.length_cons, List.length_append]
    omega
  have short : (datagram.take maxUdpPacketSize).length ≤ 65507 := List.length_take_le _ _
  obtain ⟨encTmp, sealed⟩ := reply_seals (C := C) lawful ctx s.encTmp D datagram stale ivLen (by omega)
  have reads : ∀ header, Reads C.E text (sealPacket C.E false iv (replyHeader ctx D ++ datagram.take maxUdpPacketSize)) header datagram ↔
      (C.E.method = .table ∨ flagged (replyHeader ctx D) = false) ∧ header = replyHeader ctx D ∧
        datagram = datagram.take maxUdpPacketSize :=
    fun header => reads_seal lawful made ivLen wrote (by omega) (List.length_take_le' _ _)
  have whole : datagram = datagram.take maxUdpPacketSize ↔ datagram.length ≤ maxUdpPacketSize :=
    ⟨fun same => by rw [same]; exact List.length_take_le _ _, fun fits => (List.take_of_length_le fits).symm⟩
  constructor
  · rintro ⟨packet, encTmp', header, done, read, t', h', wrote', names, asked⟩
    cases sealed.symm.trans done
    obtain ⟨clear, rfl, same⟩ := (reads header).mp read
    refine ⟨whole.mp same, fun zero => ?_⟩
    obtain ⟨own, -⟩ := unspec zero
    rw [own] at clear wrote'
    exact ⟨clear, t', h', wrote', names⟩
  · rintro ⟨fits, cond⟩
    by_cases zero : ctx.af = afUnspec
    · obtain ⟨clear, names⟩ := cond zero
      obtain ⟨own, asked⟩ := unspec zero
      obtain ⟨t', h', wrote', origin⟩ := names
      refine ⟨_, encTmp, _, sealed, (reads _).mpr ⟨own ▸ clear, rfl, whole.mpr fits⟩, t', h', own ▸ wrote', origin, fun _ => ?_⟩
      rw [own]
      exact asked
    · obtain ⟨names, clear, noName⟩ := literal zero
      refine ⟨_, encTmp, _, sealed, (reads _).mpr ⟨.inr clear, rfl, whole.mpr fits⟩, t, h, wrote, names, ?_⟩
      rintro ⟨name, same⟩
      exact absurd same (noName name)

end

/-! ## Two names in one session -/

/-- The header in the datagrams of `demoClient` to the host `x`. -/
def nameHeader (x : UInt8) : Header := ⟨.domain [x], [0, 53]⟩

/-- Where the host `x` is. -/
def nameServer (x : UInt8) : Inet := ⟨.inet [10, 0, 0, x] [0, 53], .inl rfl⟩

/-- The host that was asked for answers. -/
theorem reply_faithful_name :
    ∃ s ctx, s.sessions.heap.cell 0 = some ctx ∧ ctx.af = afUnspec ∧
      Faithful demo s ctx (nameServer 97) [7, 7] (fun _ => 0) [] demo.text := by
  obtain ⟨s, run, one⟩ := Machine.exists_of_leadsTo (show (plainMachine demo fun _ _ => true).leadsTo (start demo)
      [askFor 97, .queryResolve 0 true {}]
      (fun s => (s.sessions.heap.cell 0).any fun ctx => ctx.af == afUnspec && ctx.addrHeader == [3, 1, 97, 0, 53]) = true by
    decide +kernel)
  obtain ⟨ctx, here, known⟩ := (Option.any_eq_true _ _).mp one
  obtain ⟨unspec, header⟩ := Bool.and_eq_true_iff.mp known
  have reach : (machine demo).Reach (fun _ _ => True) (start demo) s := plain_reach rc4_lawful rfl rfl (fun _ _ _ => trivial) run
  refine ⟨s, ctx, here, eq_of_beq unspec, (reply_faithful demo rc4_lawful unsortedTable_initialised reach here _ _ _ rfl _).mpr
    ⟨by decide, fun _ => ⟨.inl rfl, ?_⟩⟩⟩
  rw [eq_of_beq header]
  exact ⟨3, nameHeader 97, ⟨by decide, by decide, rfl⟩, by decide⟩

/-- A client asks for `a` and then for `b`: what `b` answers is said to be from `a`. -/
theorem reply_mislabelled :
    ¬ ∀ s, (machine demo).Reach (fun _ _ => True) (start demo) s → ∀ id ctx, s.sessions.heap.cell id = some ctx →
      ∀ (D : Inet) (datagram : Bytes) (stale : Nat → UInt8) (iv : Bytes), iv.length = demo.E.ivLen → ∀ text : AddrText,
        Faithful demo s ctx D datagram stale iv text := by
  intro claim
  obtain ⟨s, run, one⟩ := Machine.exists_of_leadsTo (show (plainMachine demo fun _ _ => true).leadsTo (start demo)
      [askFor 97, .queryResolve 0 true {}, askFor 98, .queryResolve 0 true {}]
      (fun s => (s.sessions.heap.cell 0).any fun ctx => ctx.dstAddr == (nameServer 98).addr && (ctx.af == afUnspec &&
        ctx.addrHeader == [3, 1, 97, 0, 53])) = true by decide +kernel)
  obtain ⟨ctx, here, known⟩ := (Option.any_eq_true _ _).mp one
  obtain ⟨-, known⟩ := Bool.and_eq_true_iff.mp known
  obtain ⟨unspec, header⟩ := Bool.and_eq_true_iff.mp known
  have own : replyHeader ctx (nameServer 98) = [3, 1, 97, 0, 53] := by
    rw [replyHeader, eq_of_beq unspec, eq_of_beq header]
    rfl
  have wrote : Wrote 3 (nameHeader 97) (replyHeader ctx (nameServer 98)) := ⟨by decide, by decide, own⟩
  have reach : (machine demo).Reach (fun _ _ => True) (start demo) s := plain_reach rc4_lawful rfl rfl (fun _ _ _ => trivial) run
  obtain ⟨packet, encTmp, head, done, read, t, h, wrote', names, -⟩ :=
    claim s reach 0 ctx here (nameServer 98) [] (fun _ => 0) [] rfl demo.text
  obtain ⟨encTmp', sealed⟩ := reply_seals (C := demo) rc4_lawful ctx s.encTmp (nameServer 98) [] (fun _ => 0)
    (show ([] : Bytes).length = demo.E.ivLen from rfl) (by rw [own]; decide)
  cases sealed.symm.trans done
  obtain ⟨-, rfl, -⟩ := (reads_seal rc4_lawful unsortedTable_initialised rfl wrote (by rw [own]; decide) (Nat.le_refl _)).mp read
  obtain ⟨-, rfl, -⟩ := wrote'.prefix_unique wrote (x := []) (y := []) rfl
  exact absurd names (by decide)

end Shadowsocks.Udp.Remote
