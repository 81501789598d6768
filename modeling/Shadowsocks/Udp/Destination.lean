import Shadowsocks.Udp.Plain

/-!
# Where ss-server sends a payload

Each payload should go where the header in front of it says. A session that has been asked
for several names keeps the header of the first one and the address of the last one, and
sends there whatever has that header (`sends_named`).
-/

namespace Shadowsocks.Udp.Remote
set_option autoImplicit false
open Lib

section
variable {P : Platform}

/-- The address and the port that a header names. -/
def named (C : Config P) (h : Header) : Option (Ip × Bytes) :=
  match h.addr with
  | .ipv4 addr => some (.v4 addr, h.port)
  | .ipv6 addr => some (.v6 addr, h.port)
  | .domain name =>
    match C.text.corkIpInit (cString name) with
    | some ip => some (ip, h.port)
    | none => (C.resolver (cString name) h.port).addr.endpoint

/-- The bytes are a header that names `ep`. -/
def Names (C : Config P) (bs : Bytes) (ep : Option (Ip × Bytes)) : Prop := ∃ t h, Wrote t h bs ∧ named C h = ep

/-- The name in the header is not the text of an IPv6 address, unless of `::`. -/
def spellsNoIpv6 (C : Config P) (bs : Bytes) : Prop :=
  ∀ t h name a, Wrote t h bs → h.addr = .domain name → C.text.corkIpInit (cString name) = some (.v6 a) → a = List.replicate 16 0

/-- If a session for names has the header of the datagram, then the last answer it got is
the one to the name in this header, or to a name with the same address. -/
def lastAnswered (C : Config P) (s : State) (src : Sockaddr) (bs : Bytes) : Prop :=
  ∀ id ctx, s.sessions.heap.cell id = some ctx → ctx.key = hashKey afUnspec src → ctx.addrHeader = bs →
    ∃ ep, Names C ctx.answered ep ∧ Names C bs ep

/-- The datagrams whose payload goes where it should. -/
def straight (C : Config P) (s : State) : Event → Prop
  | .serverRecv src datagram stale _ => ∀ auth decTmp r, receive C s.auth s.decTmp stale datagram = .ok (auth, decTmp, some r) →
      spellsNoIpv6 C r.addrHeader ∧ (¬ r.dst.IsInet → lastAnswered C s src r.addrHeader)
  | _ => True

section
variable {C : Config P} {s s' : State}

theorem Names.unique {bs : Bytes} {ep ep' : Option (Ip × Bytes)} (names : Names C bs ep) (names' : Names C bs ep') : ep = ep' := by
  obtain ⟨t, h, wrote, rfl⟩ := names
  obtain ⟨t', h', wrote', rfl⟩ := names'
  obtain ⟨-, rfl, -⟩ := wrote.prefix_unique wrote' (x := []) (y := []) rfl
  rfl

/-! ## What a request says -/

/-- An address in a header, or in the text of a name, is the one that is named. -/
theorem endpoint_named (lawful : C.text.Lawful) {t : UInt8} {h : Header} {bs : Bytes} (wrote : Wrote t h bs)
    (plain : spellsNoIpv6 C bs) (inet : (headerParsed C.text h).storage.IsInet) :
    (headerParsed C.text h).storage.endpoint = named C h := by
  obtain ⟨fits, two⟩ := wrote.valid
  obtain ⟨addr, port⟩ := h
  cases addr with
  | ipv4 addr => exact Sockaddr.endpoint_inet fits two
  | ipv6 addr => exact Sockaddr.endpoint_inet6 fits two
  | domain name =>
    simp only [headerParsed, named] at inet ⊢
    unfold textSockaddr at inet ⊢
    cases reads : C.text.corkIpInit (cString name) with
    | none =>
      rw [reads] at inet
      exact absurd inet (show ¬ Sockaddr.zero.IsInet by decide)
    | some ip =>
      cases ip with
      | v4 a =>
        have stored := (lawful.v4 _ _).mp reads
        dsimp only
        rw [stored]
        exact Sockaddr.endpoint_inet (lawful.length4 _ _ stored) two
      | v6 a =>
        -- nothing is stored for such a text
        have missed : C.text.pton4 (cString name) = none := by
          cases read : C.text.pton4 (cString name) with
          | none => rfl
          | some b =>
            rw [(lawful.v4 _ _).mpr read] at reads
            cases reads
        dsimp only
        rw [missed, plain t _ name a wrote rfl reads]
        exact Sockaddr.endpoint_inet6 rfl two

/-- A header without an address has a name to be resolved. -/
theorem resolver_named {h : Header} (name : ¬ (headerParsed C.text h).storage.IsInet) :
    (headerParsed C.text h).storage.family = afUnspec ∧
      (C.resolver (headerParsed C.text h).host h.port).addr.endpoint = named C h := by
  obtain ⟨addr, port⟩ := h
  cases addr with
  | ipv4 addr => exact absurd (.inl rfl) name
  | ipv6 addr => exact absurd (.inr rfl) name
  | domain text =>
    simp only [headerParsed, named, textSockaddr] at name ⊢
    cases reads : C.text.corkIpInit (cString text) with
    | none => exact ⟨rfl, rfl⟩
    | some ip =>
      rw [reads] at name
      cases ip with
      | v4 a => exact absurd (.inl rfl) name
      | v6 a => exact absurd (.inr rfl) name

/-- A request says what its header does. -/
structure Says (C : Config P) (r : Request) : Prop where
  inet : r.dst.IsInet → Names C r.addrHeader r.dst.endpoint
  name : ¬ r.dst.IsInet → r.dst.family = afUnspec ∧ Names C r.addrHeader (C.resolver r.host r.port).addr.endpoint

theorem receive_agrees (lawful : C.text.Lawful) {auth auth' : Bool} {decTmp decTmp' : Buffer} {stale : Nat → UInt8}
    {datagram : Bytes} {r : Request} (received : receive C auth decTmp stale datagram = .ok (auth', decTmp', some r))
    (plain : spellsNoIpv6 C r.addrHeader) : Says C r := by
  obtain ⟨t, h, wrote, eq⟩ := receive_some received
  have dst : r.dst = (headerParsed C.text h).storage := by rw [eq]; rfl
  have host : r.host = (headerParsed C.text h).host := by rw [eq]; rfl
  have port : r.port = h.port := by rw [eq]; rfl
  constructor
  · intro inet
    rw [dst] at inet ⊢
    exact ⟨t, h, wrote, (endpoint_named lawful wrote plain inet).symm⟩
  · intro name
    rw [dst] at name
    obtain ⟨family, answer⟩ := resolver_named name
    rw [dst, host, port]
    exact ⟨family, t, h, wrote, answer.symm⟩

/-! ## The invariant -/

/-- The address a session has is that of the header last answered; in a session for an
address there is no other header; and a query refers to a session for names. -/
structure Told (C : Config P) (s : State) : Prop where
  answered : ∀ id ctx, s.sessions.heap.cell id = some ctx → Names C ctx.answered ctx.dstAddr.endpoint
  literal : ∀ id ctx, s.sessions.heap.cell id = some ctx → ctx.af ≠ afUnspec → ctx.answered = ctx.addrHeader
  query : ∀ q ∈ s.pending, Names C q.addrHeader (C.resolver q.host q.port).addr.endpoint
  refers : ∀ q ∈ s.pending, ∀ id, q.remoteCtx = some id →
    id < s.sessions.heap.next ∧ ∀ ctx, s.sessions.heap.cell id = some ctx → ctx.af = afUnspec
  sent : ∀ m ∈ s.sent, Names C m.addrHeader m.dst.endpoint

theorem told_start (C : Config P) : Told C (start C) where
  answered _ _ here := by cases here
  literal _ _ here := by cases here
  query _ mem := by cases mem
  refers _ mem := by cases mem
  sent _ mem := by cases mem

/-- The other fields do not matter. -/
theorem Told.of_eq (told : Told C s) (sessions : s'.sessions = s.sessions) (pending : ∀ q ∈ s'.pending, q ∈ s.pending)
    (sent : s'.sent = s.sent) : Told C s' where
  answered := by rw [sessions]; exact told.answered
  literal := by rw [sessions]; exact told.literal
  query q mem := told.query q (pending q mem)
  refers q mem := by rw [sessions]; exact told.refers q (pending q mem)
  sent := by rw [sent]; exact told.sent

theorem Told.kept (told : Told C s) {sessions : Sessions} (kept : Sessions.Kept maxUdpConnNum s.sessions sessions) :
    Told C { s with sessions } where
  answered := by dsimp only; rw [kept.cell]; exact told.answered
  literal := by dsimp only; rw [kept.cell]; exact told.literal
  query := told.query
  refers q mem id refers := by
    obtain ⟨old, af⟩ := told.refers q mem id refers
    dsimp only
    rw [kept.cell]
    exact ⟨Nat.lt_of_lt_of_le old kept.next, af⟩
  sent := told.sent

theorem Told.entered (told : Told C s) {ctx : RemoteCtx} {sessions : Sessions}
    (entered : Sessions.Entered maxUdpConnNum s.sessions ctx sessions) (answered : Names C ctx.answered ctx.dstAddr.endpoint)
    (literal : ctx.af ≠ afUnspec → ctx.answered = ctx.addrHeader) : Told C { s with sessions } where
  answered id ctx' here := by
    rcases entered.cell here with old | ⟨-, rfl⟩
    · exact told.answered id ctx' old
    · exact answered
  literal id ctx' here := by
    rcases entered.cell here with old | ⟨-, rfl⟩
    · exact told.literal id ctx' old
    · exact literal
  query := told.query
  refers q mem id refers := by
    obtain ⟨old, af⟩ := told.refers q mem id refers
    dsimp only
    rw [entered.next]
    refine ⟨Nat.lt_succ_of_lt old, fun ctx' here => ?_⟩
    rcases entered.cell here with there | ⟨rfl, -⟩
    · exact af ctx' there
    · exact absurd old (Nat.lt_irrefl _)
  sent := told.sent

theorem Told.send (told : Told C s) {addrHeader payload : Bytes} {dst : Sockaddr} (names : Names C addrHeader dst.endpoint) :
    Told C (s.send addrHeader payload dst) where
  answered := told.answered
  literal := told.literal
  query := told.query
  refers := told.refers
  sent m mem := by
    rcases List.mem_append.mp mem with old | new
    · exact told.sent m old
    · cases List.mem_singleton.mp new
      exact names

theorem Told.ask (told : Told C s) {src : Sockaddr} {r : Request} {remoteCtx : Option Nat} {io : Io}
    (names : Names C r.addrHeader (C.resolver r.host r.port).addr.endpoint)
    (refers : ∀ id, remoteCtx = some id →
      id < s.sessions.heap.next ∧ ∀ ctx, s.sessions.heap.cell id = some ctx → ctx.af = afUnspec) :
    Told C (s.ask src r remoteCtx io) := by
  unfold State.ask
  split
  · refine { told with query := fun q mem => ?_, refers := fun q mem => ?_ }
    · rcases List.mem_append.mp mem with old | new
      · exact told.query q old
      · cases List.mem_singleton.mp new
        exact names
    · rcases List.mem_append.mp mem with old | new
      · exact told.refers q old
      · cases List.mem_singleton.mp new
        exact refers
  · exact told

/-- An answer for a session for names. -/
theorem Told.modify (told : Told C s) (id : Nat) {addr : Sockaddr} {addrHeader : Bytes} (names : Names C addrHeader addr.endpoint)
    (unspec : ∀ ctx, s.sessions.heap.cell id = some ctx → ctx.af = afUnspec) :
    Told C { s with sessions := s.sessions.modify id fun ctx => { ctx with dstAddr := addr, answered := addrHeader } } := by
  have cell : ∀ j ctx', (s.sessions.heap.modify id fun ctx => { ctx with dstAddr := addr, answered := addrHeader }).cell j = some ctx' →
      (∃ ctx, s.sessions.heap.cell j = some ctx ∧ j = id ∧ ctx' = { ctx with dstAddr := addr, answered := addrHeader }) ∨
      s.sessions.heap.cell j = some ctx' := by
    intro j ctx' here
    by_cases same : j = id
    · subst same
      rw [Heap.cell_modify_self] at here
      obtain ⟨ctx, old, rfl⟩ := Option.map_eq_some_iff.mp here
      exact .inl ⟨ctx, old, rfl, rfl⟩
    · exact .inr ((Heap.cell_modify_of_ne same).symm.trans here)
  constructor
  · intro j ctx' here
    rcases cell j ctx' here with ⟨ctx, -, -, rfl⟩ | old
    · exact names
    · exact told.answered j ctx' old
  · intro j ctx' here af
    rcases cell j ctx' here with ⟨ctx, old, rfl, rfl⟩ | old
    · exact absurd (unspec ctx old) af
    · exact told.literal j ctx' old af
  · exact told.query
  · intro q mem j refers
    obtain ⟨old, af⟩ := told.refers q mem j refers
    refine ⟨old, fun ctx' here => ?_⟩
    rcases cell j ctx' here with ⟨ctx, there, -, rfl⟩ | there
    · exact af ctx there
    · exact af ctx' there
  · exact told.sent

/-! ## Every event keeps it -/

theorem Routed.told {src : Sockaddr} {r : Request} {io : Io} (routed : Routed s src r io s') (told : Told C s)
    (sound : s.sessions.Sound maxUdpConnNum) (agrees : Says C r) (last : ¬ r.dst.IsInet → lastAnswered C s src r.addrHeader) :
    Told C s' := by
  cases routed with
  | literal _ _ _ kept _ _ _ inet => exact (told.kept kept).send (agrees.inet inet)
  | asks id ctx sessions kept here key other name =>
    obtain ⟨unspec, names⟩ := agrees.name name
    refine (told.kept kept).ask names fun id' same => ?_
    cases same
    refine ⟨?_, fun ctx' here' => ?_⟩
    · by_contra above
      have none_ := sound.bounded id (Nat.le_trans kept.next (Nat.not_lt.mp above))
      rw [here] at none_
      cases none_
    · rw [kept.cell, here] at here'
      cases here'
      rw [(hashKey_injective key).1, unspec]
  | again id ctx sessions kept here key same =>
    refine (told.kept kept).send ?_
    have answered := told.answered id ctx here
    by_cases inet : r.dst.IsInet
    · -- a session for an address has no other header
      have af : ctx.af ≠ afUnspec := by
        rw [(hashKey_injective key).1]
        rcases inet with four | six
        · rw [four]; decide
        · rw [six]; decide
      rw [told.literal id ctx here af, same] at answered
      exact answered
    · obtain ⟨unspec, -⟩ := agrees.name inet
      obtain ⟨ep, theirs, ours⟩ := last inet id ctx here (unspec ▸ key) same
      rw [answered.unique theirs]
      exact ours
  | noSocket => exact told
  | opened sessions inet fresh ready entered => exact (told.entered entered (agrees.inet inet) fun _ => rfl).send (agrees.inet inet)
  | unsent _ inet kept => exact (told.kept kept).send (agrees.inet inet)
  | queries name =>
    obtain ⟨-, names⟩ := agrees.name name
    exact told.ask names nofun

theorem Resolved.told {q : Query} {addr : Sockaddr} {io : Io} (resolved : Resolved s q addr io s') (told : Told C s)
    (names : Names C q.addrHeader addr.endpoint)
    (refers : ∀ id, q.remoteCtx = some id → ∀ ctx, s.sessions.heap.cell id = some ctx → ctx.af = afUnspec) : Told C s' := by
  cases resolved with
  | updated id ctx sessions kept here whose =>
    refine ((told.kept kept).modify id names fun ctx' here' => ?_).send names
    rw [kept.cell, here] at here'
    cases here'
    rcases whose with own | ⟨-, key⟩
    · exact refers id own ctx here
    · exact (hashKey_injective key).1
  | noSocket => exact told
  | opened sessions _ _ entered => exact (told.entered entered names fun named => absurd rfl named).send names
  | unsent _ kept => exact (told.kept kept).send names

theorem Fired.told {e : Event} (lawful : C.text.Lawful) (fired : Fired C s e s') (told : Told C s)
    (sound : s.sessions.Sound maxUdpConnNum) (may : straight C s e) : Told C s' := by
  cases fired with
  | dropped => exact told.of_eq rfl (fun _ mem => mem) rfl
  | routed src datagram stale io auth decTmp r received s' outcome =>
    obtain ⟨plain, last⟩ := may auth decTmp r received
    exact outcome.told (told.of_eq rfl (fun _ mem => mem) rfl) sound (receive_agrees lawful received plain) last
  | unanswered => exact told.of_eq rfl (fun _ mem => List.mem_of_mem_eraseIdx mem) rfl
  | answered i io q pending s' outcome =>
    have mem : q ∈ s.pending := List.mem_of_getElem? pending
    exact outcome.told (told.of_eq rfl (fun _ mem => List.mem_of_mem_eraseIdx mem) rfl) (told.query q mem)
      fun id own => (told.refers q mem id own).2
  | replied => exact told.of_eq rfl (fun _ mem => mem) rfl
  | expired id ctx here sessions _ heap =>
    have older : ∀ j ctx', sessions.heap.cell j = some ctx' → s.sessions.heap.cell j = some ctx' := by
      intro j ctx' there
      rw [heap] at there
      by_cases same : j = id
      · rw [same, Heap.cell_free_self] at there
        cases there
      · rwa [Heap.cell_free_of_ne same] at there
    refine ⟨fun j ctx' there => told.answered j ctx' (older j ctx' there), fun j ctx' there => told.literal j ctx' (older j ctx' there),
      told.query, fun q mem j refers => ?_, told.sent⟩
    obtain ⟨old, af⟩ := told.refers q mem j refers
    refine ⟨?_, fun ctx' there => af ctx' (older j ctx' there)⟩
    dsimp only
    rw [heap]
    exact old

end

end

/-- The literals of `demo`: there are none. -/
theorem demo_text_lawful : demo.text.Lawful where
  v4 _ _ := ⟨nofun, nofun⟩
  v6 _ _ := ⟨nofun, nofun⟩
  length4 _ _ := nofun
  length6 _ _ := nofun

/-- The header in a datagram of `demoClient` to an address. -/
def demoLiteral : Header := ⟨.ipv4 [10, 0, 0, 5], [0, 53]⟩

/-- Each session for the header in the datagram was last answered for this header. -/
def PlainEvent.upToDate (s : State) : PlainEvent → Bool
  | recv _ t h _ _ =>
    let bs := t :: (h.addr.body ++ h.port)
    (List.range s.sessions.heap.next).all fun id =>
      (s.sessions.heap.cell id).all fun ctx => ctx.addrHeader != bs || ctx.answered == bs
  | _ => true

theorem straight_of_upToDate {s : State} (bounded : s.sessions.heap.Bounded) {e : PlainEvent} (fits : e.Fits)
    (fine : e.upToDate s = true) : straight demo s e.lift := by
  cases e with
  | recv src t h payload io =>
    intro auth decTmp r received
    obtain ⟨valid, typ, small⟩ := fits
    have known := receive_plain (C := demo) rc4_lawful rfl rfl s.auth s.decTmp (fun _ => 0) payload valid typ small
    cases known.symm.trans received
    refine ⟨fun _ _ _ _ _ _ => nofun, fun _ id ctx here _ own => ?_⟩
    have names : Names demo (t :: (h.addr.body ++ h.port)) (named demo h) := ⟨t, h, ⟨valid, typ, rfl⟩, rfl⟩
    have within : id < s.sessions.heap.next := by
      by_contra out
      cases here.symm.trans (bounded id (Nat.not_lt.mp out))
    have last := List.all_eq_true.mp fine id (List.mem_range.mpr within)
    rw [here, Option.all_some, Bool.or_eq_true, bne_iff_ne, beq_iff_eq] at last
    exact ⟨_, (last.resolve_left fun other => other own) ▸ names, names⟩
  | queryResolve => exact trivial
  | remoteTimeout => exact trivial

end Shadowsocks.Udp.Remote
