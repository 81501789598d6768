import Shadowsocks.Agreement
import Shadowsocks.Local.Stream
import Shadowsocks.Tun2socks.EndToEnd
import Shadowsocks.Tun2socks.SocksDialogue

/-!
# The SOCKS client of tun2socks and ss-local

A client and the connection that serves it, as one machine. What one of them has sent and the other
has not yet received is on its way, and each receives as much of it as it likes, with one exception:
ss-local must get a greeting and a request whole, as it takes what it gets for all of them.
-/

namespace Shadowsocks.Tun2socks
set_option autoImplicit false
open Lib

/-- All that the client and its user have sent. -/
def SocksClient.wrote (c : SocksClient) : Bytes := c.sent ++ c.userSent

/-- All that they have received. -/
def SocksClient.took (c : SocksClient) : Bytes := c.got ++ c.userGot

section
variable {P : Platform}

/-- The two ends. Of what the client has sent, ss-local has read `taken` bytes. -/
structure Served (P : Platform) where
  client : SocksClient
  conn : Local.Conn P
  taken : Nat := 0

inductive ServedEvent where
  | client (e : SocksEvent)
  | server (e : Local.Event)

inductive ServedEnd where
  | client (why : SocksEnded)
  | server (why : Stop)

/-- All that ss-local has sent to its client. -/
def Served.wrote (s : Served P) : Bytes := s.conn.replies ++ s.conn.down.accepted

/-- What is received is what was sent, in order. -/
def servedEnabled (s : Served P) : ServedEvent → Bool
  | .client e => socksEnabled s.client e && (e.takes ++ e.userTakes).isPrefixOf (s.wrote.drop s.client.took.length)
  | .server e => Local.enabled s.conn e && e.payload.flatten.isPrefixOf (s.client.wrote.drop s.taken)

def servedFire (C : Local.Config P) (s : Served P) : ServedEvent → Except ServedEnd (Served P)
  | .client e => ((socksFire s.client e).mapError .client).map fun client => { s with client }
  | .server e => ((Local.fire C s.conn e).mapError .server).map fun conn => { s with conn, taken := s.taken + e.payload.flatten.length }

def servedMachine (C : Local.Config P) : Machine (Served P) ServedEvent ServedEnd where
  enabled := servedEnabled
  fire := servedFire C

/-- The client connects, and is accepted with the initial vector `iv`. -/
def served (C : Local.Config P) (iv : Bytes) (authInfo : List AuthInfo) (destAddr : BAddr) : Served P where
  client := socksInit authInfo destAddr
  conn := Local.acceptCb C iv

/-- Until the relay begins ss-local gets what the client says when it has said it, and all of it. -/
def inWhole (s : Served P) : ServedEvent → Prop
  | .server e => s.conn.phase.remote? = none → ∀ seg ∈ e.payload, seg = s.client.wrote.drop s.taken ∧ s.client.sending = []
  | .client _ => True

/-! ## What the two say -/

theorem request_eq (c : SocksClient) : c.request = Local.connectRequest c.destAddr.header := by
  unfold SocksClient.request
  cases c.destAddr <;> rfl

theorem BAddr.header_valid (addr : BAddr) : addr.header.Valid := (addr.wrote_headerBytes).1

/-- ss-local knows one method only. -/
theorem chooses_none {c : SocksClient} (known : AuthInfo.none ∈ c.authInfo) : c.Chooses .none := by
  refine ⟨?_, rfl⟩
  cases found : c.authInfo.find? fun ai => ai.type == AuthInfo.none.type with
  | none => exact absurd (List.find?_eq_none.mp found _ known) (by simp)
  | some ai =>
    have typ := List.find?_some found
    cases ai with
    | none => rfl
    | password => simp [AuthInfo.type] at typ

/-- What ss-local answers is an answer. -/
theorem answers_local {c : SocksClient} (known : AuthInfo.none ∈ c.authInfo) : c.Answers ([5, 0] ++ Local.fakeReply) :=
  ⟨.none, Local.fakeReply, chooses_none known, ⟨0, 1, [0, 0, 0, 0, 0, 0], rfl, .inl ⟨rfl, rfl⟩⟩, rfl⟩

/-- A step of the client adds to what it has sent and received. -/
theorem SocksClient.Grown.wrote_takes {start c c' : SocksClient} {e : SocksEvent} (grown : Grown start c) (on : socksEnabled c e = true)
    (done : socksFire c e = .ok c') : c.wrote <+: c'.wrote ∧ c'.took = c.took ++ (e.takes ++ e.userTakes) := by
  have flow := SocksClient.fire_flow done
  have apart := grown.progress.apart on
  unfold wrote took
  rw [flow.sent, flow.got, flow.userSent, flow.userGot]
  by_cases up : c.state = .up
  · obtain ⟨nothing, nothing'⟩ := apart.1 up
    rw [nothing, nothing']
    simp
  · obtain ⟨nothing, nothing'⟩ := apart.2 up
    obtain ⟨before, before'⟩ := grown.quiet up
    rw [nothing, nothing', before, before']
    simp

/-! ## Where the client is, by what it has heard -/

section
variable {start c : SocksClient}

theorem AuthInfo.eq_none_of_type {ai : AuthInfo} (zero : ai.type = 0) : ai = .none := by
  cases ai with
  | none => rfl
  | password => simp [type] at zero

theorem SocksClient.Grown.same_hello (grown : Grown start c) : c.hello = start.hello := by
  rw [hello, hello, grown.authInfo]

theorem SocksClient.Grown.same_request (grown : Grown start c) : c.request = start.request := by
  rw [request, request, grown.destAddr]

/-- A client that has heard nothing and has finished saying something has said its greeting. -/
theorem greeting_said (grown : SocksClient.Grown start c) (idle : c.sending = []) (nothing : c.took = []) (some_ : c.wrote ≠ []) :
    c.wrote = start.hello := by
  obtain ⟨gotNone, -⟩ := List.append_eq_nil_iff.mp nothing
  have alone : c.state ≠ .up → c.wrote = c.sent := fun off => by rw [SocksClient.wrote, (grown.quiet off).1, List.append_nil]
  rw [← grown.same_hello]
  cases grown.progress with
  | connecting at_ _ sent => exact absurd ((alone (by simp [at_])).trans sent) some_
  | sentHello at_ _ _ _ sent => exact (alone (by simp [at_])).trans sent
  | sendingHello _ more | sendingPassword _ _ _ _ more | sendingRequest _ _ _ more => exact absurd idle more
  | sentPassword _ _ _ _ _ _ _ _ got | sentRequest _ _ _ _ _ _ _ got => simp [gotNone] at got
  | receivedReplyHeader _ _ _ _ _ _ _ _ _ got | up _ _ _ _ _ _ _ got => simp [gotNone] at got

/-- A client that has heard no more than the choice of its method, and has finished saying something behind its
greeting, has heard all of it and has said its request. -/
theorem request_said (grown : SocksClient.Grown start c) (idle : c.sending = []) (heard : c.took <+: [5, 0])
    (more : c.wrote.drop start.hello.length ≠ []) : c.wrote = start.hello ++ start.request ∧ c.took = [5, 0] := by
  have heard' : c.got <+: [5, 0] := (List.prefix_append _ _).trans heard
  have alone : c.state ≠ .up → c.wrote = c.sent ∧ c.took = c.got := fun off => by
    rw [SocksClient.wrote, SocksClient.took, (grown.quiet off).1, (grown.quiet off).2, List.append_nil, List.append_nil]
    exact ⟨rfl, rfl⟩
  have short : c.got.length ≤ 2 := heard'.length_le
  rw [← grown.same_hello, ← grown.same_request]
  rw [← grown.same_hello] at more
  cases grown.progress with
  | connecting at_ _ sent =>
    rw [(alone (by simp [at_])).1, sent] at more
    simp at more
  | sentHello at_ _ _ _ sent =>
    rw [(alone (by simp [at_])).1, sent] at more
    simp at more
  | sendingHello _ more | sendingPassword _ _ _ _ more | sendingRequest _ _ _ more => exact absurd idle more
  | sentPassword ai _ named _ _ _ _ _ got =>
    rw [got] at heard'
    have zero : ai.type = 0 := by
      simp only [List.cons_append, List.nil_append, List.cons_prefix_cons] at heard'
      exact heard'.2.1
    exact absurd (AuthInfo.eq_none_of_type zero) named
  | sentRequest ai _ at_ _ _ _ sent got =>
    rw [got] at heard'
    simp only [List.cons_append, List.nil_append, List.cons_prefix_cons, List.prefix_nil, List.append_eq_nil_iff] at heard'
    obtain ⟨-, zero, answer, buffer⟩ := heard'
    obtain rfl := AuthInfo.eq_none_of_type zero
    obtain ⟨said, took⟩ := alone (by simp [at_])
    rw [said, took, sent, got, buffer]
    exact ⟨by simp [SocksClient.speech, AuthInfo.message], rfl⟩
  | receivedReplyHeader _ _ _ _ _ _ _ _ _ got =>
    simp only [got, List.length_append, List.length_cons] at short
    omega
  | up _ _ _ whole _ _ _ got =>
    obtain ⟨_, _, _, rfl, -⟩ := whole
    simp only [got, List.length_append, List.length_cons] at short
    omega

/-- A client that is up has heard the choice and the reply. -/
theorem reply_heard (grown : SocksClient.Grown start c) (up : c.state = .up) {more : Bytes}
    (heard : c.took <+: [5, 0] ++ Local.fakeReply ++ more) : c.got = [5, 0] ++ Local.fakeReply := by
  cases grown.progress with
  | up ai _ reply whole _ _ _ got =>
    obtain ⟨rsv, atyp, bound, rfl, len⟩ := whole
    have front : [5, ai.type] ++ ai.answer ++ ([5, 0, rsv, atyp] ++ bound) <+: [5, 0] ++ Local.fakeReply ++ more :=
      got ▸ (List.prefix_append _ _).trans heard
    have zero : ai.type = 0 := by
      simp only [List.cons_append, List.nil_append, List.cons_prefix_cons] at front
      exact front.2.1
    obtain rfl := AuthInfo.eq_none_of_type zero
    simp only [AuthInfo.answer, Local.fakeReply, List.cons_append, List.nil_append, List.cons_prefix_cons, List.append_nil] at front
    obtain ⟨-, -, -, -, rfl, rfl, front⟩ := front
    have six : bound.length = 6 := by
      rcases len with ⟨-, six⟩ | ⟨no, -⟩
      · exact six
      · exact absurd no (by decide)
    have zeros : bound = [0, 0, 0, 0, 0, 0] := by
      have same := List.prefix_iff_eq_take.mp front
      rw [six] at same
      simpa using same
    rw [got, zeros]
    rfl
  | connecting no | sendingHello no | sentHello no | sendingPassword _ _ _ no | sentPassword _ _ _ no => simp [up] at no
  | sendingRequest _ _ no | sentRequest _ _ no | receivedReplyHeader _ _ _ _ no => simp [up] at no

/-- Of what ss-local says the client never asks for more than the handshake, and never refuses it. -/
theorem not_refused (grown : SocksClient.Grown start c) (known : AuthInfo.none ∈ start.authInfo) {data more : Bytes}
    (on : socksEnabled c (.recvDone data true) = true) (heard : c.got ++ data <+: [5, 0] ++ Local.fakeReply ++ more) :
    socksFire c (.recvDone data true) ≠ .error .error := by
  intro failed
  have kept := SocksClient.fire_kept grown.progress on
  simp only [socksEnabled, Bool.and_eq_true, decide_eq_true_eq] at on
  obtain ⟨⟨receives, -⟩, fits⟩ := on
  have fewer : (c.got ++ data).length ≤ 12 := by
    rw [List.length_append]
    cases grown.progress with
    | connecting at_ | sendingHello at_ | up _ _ _ _ at_ => simp [at_, SocksState.receives] at receives
    | sendingPassword _ _ _ at_ | sendingRequest _ _ at_ => simp [at_, SocksState.receives] at receives
    | sentHello _ _ two _ _ got =>
      rw [got]
      omega
    | sentPassword ai _ named _ _ two short _ got =>
      rw [got, List.length_append, List.length_cons, List.length_singleton]
      omega
    | sentRequest ai _ _ _ four short _ got =>
      have front : c.got <+: [5, 0] ++ Local.fakeReply ++ more := (List.prefix_append _ _).trans heard
      rw [got, List.append_assoc] at front
      simp only [List.cons_append, List.nil_append, List.cons_prefix_cons] at front
      obtain rfl := AuthInfo.eq_none_of_type front.2.1
      rw [got]
      simp only [AuthInfo.answer, List.append_nil, List.length_append, List.length_cons, List.length_nil]
      omega
    | receivedReplyHeader ai _ rsv atyp _ _ bound short _ got =>
      have front : c.got <+: [5, 0] ++ Local.fakeReply ++ more := (List.prefix_append _ _).trans heard
      rw [got, List.append_assoc, List.append_assoc] at front
      simp only [List.cons_append, List.nil_append, List.cons_prefix_cons] at front
      obtain rfl := AuthInfo.eq_none_of_type front.2.1
      simp only [AuthInfo.answer, Local.fakeReply, List.cons_append, List.nil_append, List.cons_prefix_cons] at front
      obtain ⟨-, -, -, -, rfl, rfl, -⟩ := front
      have six : c.recvTotal = 6 := by
        rcases bound with ⟨-, six⟩ | ⟨no, -⟩
        · exact six
        · exact absurd no (by decide)
      rw [got]
      simp only [AuthInfo.answer, List.append_nil, List.length_append, List.length_cons, List.length_nil]
      omega
  -- so the answers of ss-local go on from there
  have part : c.got ++ data <+: [5, 0] ++ Local.fakeReply := List.prefix_of_prefix_length_le heard (List.prefix_append _ _) fewer
  obtain ⟨rest, whole⟩ := part
  refine kept.refuses rfl failed rest ?_
  show c.Answers (c.got ++ data ++ rest)
  rw [whole]
  exact answers_local (grown.authInfo ▸ known)

end

/-! ## Every step -/

variable {C : Local.Config P} {iv : Bytes} {start : SocksClient} {s s' : Served P}

/-- How far ss-local has come with the client. -/
inductive Serving (C : Local.Config P) (iv : Bytes) (start : SocksClient) (s : Served P) : Prop where
  | accepted (at_ : s.conn.phase = .handshake) (greeted : Local.Greeted C iv [] s.conn) (taken : s.taken = 0)
  | greeted (said : Bytes) (at_ : s.conn.phase = .request) (greeted : Local.Greeted C iv said s.conn) (part : said <+: [5, 0])
      (taken : s.taken = start.hello.length)
  | relays (later : List Bytes) (phase : ∃ r, s.conn.phase = .stream r) (header : s.conn.header = some (start.destAddr.header.encode false))
      (replies : s.conn.replies = [5, 0] ++ Local.fakeReply) (taken : s.taken = (start.hello ++ start.request ++ later.flatten).length)
      (front : start.hello ++ start.request ++ later.flatten <+: s.client.wrote) (small : ∀ seg ∈ later, 0 < seg.length ∧ seg.length ≤ bufSize)
      (streams : InLimit C.E ((Local.firstSent C iv start.destAddr.header (Local.choice C start.destAddr.header []) []).length +
          (Local.framed C iv (Local.choice C start.destAddr.header []) 0 later).length) →
        Local.Streaming C iv start.destAddr.header (Local.choice C start.destAddr.header [])
          (Local.opening C iv start.destAddr.header (Local.choice C start.destAddr.header []) [5, 0] []) later s.conn)

/-- What holds between the steps of the two. -/
structure InStep (C : Local.Config P) (iv : Bytes) (start : SocksClient) (s : Served P) : Prop where
  grown : SocksClient.Grown start s.client
  heard : s.client.took <+: s.wrote
  serving : Serving C iv start s

theorem Served.fire_client {e : SocksEvent} (done : servedFire C s (.client e) = .ok s') :
    ∃ client, socksFire s.client e = .ok client ∧ s' = { s with client } := by
  dsimp only [servedFire] at done
  cases fired : socksFire s.client e with
  | error why =>
    rw [fired] at done
    cases done
  | ok client =>
    rw [fired] at done
    cases done
    exact ⟨client, rfl, rfl⟩

theorem Served.fire_server {e : Local.Event} (done : servedFire C s (.server e) = .ok s') :
    ∃ conn, Local.fire C s.conn e = .ok conn ∧ s' = { s with conn, taken := s.taken + e.payload.flatten.length } := by
  dsimp only [servedFire] at done
  cases fired : Local.fire C s.conn e with
  | error why =>
    rw [fired] at done
    cases done
  | ok conn =>
    rw [fired] at done
    cases done
    exact ⟨conn, rfl, rfl⟩

/-- What comes next in a stream goes on with what has come. -/
theorem append_of_drop {α : Type} {xs ys zs : List α} (front : xs <+: zs) (next : ys <+: zs.drop xs.length) : xs ++ ys <+: zs := by
  obtain ⟨rest, rfl⟩ := front
  rw [List.drop_left] at next
  exact (List.prefix_append_right_inj xs).mpr next

theorem InStep.client {e : SocksEvent} (step : InStep C iv start s) (on : servedEnabled s (.client e) = true)
    (done : servedFire C s (.client e) = .ok s') : InStep C iv start s' := by
  obtain ⟨client, fired, rfl⟩ := Served.fire_client done
  simp only [servedEnabled, Bool.and_eq_true, List.isPrefixOf_iff_prefix] at on
  obtain ⟨on, next⟩ := on
  obtain ⟨grows, took⟩ := step.grown.wrote_takes on fired
  refine ⟨step.grown.fire on fired, ?_, ?_⟩
  · show client.took <+: s.wrote
    rw [took]
    exact append_of_drop step.heard next
  · cases step.serving with
    | accepted at_ greeted taken => exact .accepted at_ greeted taken
    | greeted said at_ greeted part taken => exact .greeted said at_ greeted part taken
    | relays later phase header replies taken front small streams =>
      exact .relays later phase header replies taken (front.trans grows) small streams

/-- The first segment is the greeting, and there is nothing behind it. -/
theorem InStep.first {e : Local.ServerRecv} {segment : Segment} (few : start.authInfo.length < 256) (step : InStep C iv start s)
    (at_ : s.conn.phase = .handshake) (greeted : Local.Greeted C iv [] s.conn) (taken : s.taken = 0)
    (may : inWhole s (.server (.serverRecv e))) (arrived : e.recv = .data segment) :
    segment.bytes = start.hello ∧ s.client.took = [] ∧ ∃ mid, Local.Greeted C iv (Local.delivered e.greeting [5, 0]) mid ∧
      mid.phase = .request ∧ Local.serverRecvCb C s.conn e = .ok mid := by
  have early : s.conn.phase.remote? = none := by rw [at_]; rfl
  have nothing : s.client.took = [] := by
    have heard := step.heard
    rwa [Served.wrote, greeted.replies, greeted.undelivered, List.append_nil, List.prefix_nil] at heard
  obtain ⟨whole, idle⟩ := may early segment.bytes (by simp [Local.Event.payload, arrived])
  rw [taken, List.drop_zero] at whole
  have hello : segment.bytes = start.hello := whole.trans (greeting_said step.grown idle nothing (by
    rw [← whole]
    exact List.length_pos_iff.mp segment.pos))
  have alone : Local.requestIn s.conn segment = none := by
    have count : (UInt8.ofNat start.authInfo.length).toNat = start.authInfo.length := by
      rw [UInt8.toNat_ofNat']
      exact Nat.mod_eq_of_lt few
    simp [Local.requestIn, at_, hello, SocksClient.hello, Local.requestPart, count]
  refine ⟨hello, nothing, ?_⟩
  obtain ⟨mid, before, ⟨-, -, phase, waits⟩ | ⟨found, -⟩⟩ := Local.serverRecvCb_early greeted early arrived
  · rw [at_] at before
    exact ⟨mid, before, phase, waits⟩
  · rw [alone] at found
    cases found

/-- The second one is the request. -/
theorem InStep.second {said : Bytes} {e : Local.ServerRecv} {segment : Segment} (step : InStep C iv start s)
    (at_ : s.conn.phase = .request) (greeted : Local.Greeted C iv said s.conn) (part : said <+: [5, 0])
    (taken : s.taken = start.hello.length) (may : inWhole s (.server (.serverRecv e))) (arrived : e.recv = .data segment) :
    segment.bytes = start.request ∧ s.client.wrote = start.hello ++ start.request ∧ s.client.took = [5, 0] ∧
      ∃ mid, Local.Greeted C iv [5, 0] mid ∧ mid.down.buf.Holds ([5, 1, 0] ++ start.destAddr.header.encode false ++ []) ∧
        Local.serverRecvCb C s.conn e = Local.request C mid e := by
  have early : s.conn.phase.remote? = none := by rw [at_]; rfl
  have heard : s.client.took <+: said := by
    have heard := step.heard
    rwa [Served.wrote, greeted.replies, greeted.undelivered, List.append_nil] at heard
  obtain ⟨whole, idle⟩ := may early segment.bytes (by simp [Local.Event.payload, arrived])
  rw [taken] at whole
  obtain ⟨wrote, took⟩ := request_said step.grown idle (heard.trans part) (by
    rw [← whole]
    exact List.length_pos_iff.mp segment.pos)
  rw [wrote, List.drop_left] at whole
  have all : said = [5, 0] := (part.eq_of_length_le (took ▸ heard.length_le))
  refine ⟨whole, wrote, took, ?_⟩
  obtain ⟨mid, before, ⟨-, no, -⟩ | ⟨found, reads⟩⟩ := Local.serverRecvCb_early greeted early arrived
  · rw [at_] at no
    cases no
  obtain ⟨bytes, part_, holds, -⟩ := Local.requestIn_holds greeted.unopened.room found
  rw [at_, Local.requestPart, Option.some_inj] at part_
  refine ⟨mid, ?_, ?_, reads⟩
  · have answered : said ++ Local.answers s.conn.phase e = [5, 0] := by
      rw [at_, all]
      rfl
    rwa [answered] at before
  · have same : bytes = [5, 1, 0] ++ start.destAddr.header.encode false := by
      rw [← part_, whole, request_eq, Local.connectRequest]
    rw [List.append_nil]
    rwa [same] at holds

/-- The client sends nothing before it has the answer, so the first segment is the greeting and
the second one the request. From then on the answers are on their way, and only bytes are relayed.
-/
theorem InStep.server {e : Local.Event} (lawful : P.evp.Lawful) (method : C.E.method ≠ .table) (ivLen : iv.length = C.E.ivLen)
    (few : start.authInfo.length < 256) (step : InStep C iv start s) (on : servedEnabled s (.server e) = true)
    (may : inWhole s (.server e)) (done : servedFire C s (.server e) = .ok s') : InStep C iv start s' := by
  obtain ⟨conn, fired, rfl⟩ := Served.fire_server done
  simp only [servedEnabled, Bool.and_eq_true, List.isPrefixOf_iff_prefix] at on
  obtain ⟨on, next⟩ := on
  have grown := step.grown
  cases step.serving with
  | accepted at_ greeted taken =>
    obtain ⟨e, rfl⟩ := greeted.enabled (by rw [at_]; rfl) on
    change Local.serverRecvCb C s.conn e = .ok conn at fired
    cases arrived : e.recv with
    | eof => simp only [Local.serverRecvCb, arrived] at fired; cases fired
    | failed => simp only [Local.serverRecvCb, arrived] at fired; cases fired
    | wouldBlock =>
      simp only [Local.serverRecvCb, arrived] at fired
      cases fired
      refine ⟨grown, step.heard, .accepted at_ greeted ?_⟩
      simp [Local.Event.payload, arrived, taken]
    | data segment =>
      obtain ⟨hello, nothing, mid, before, phase, waits⟩ := step.first few at_ greeted taken may arrived
      rw [waits] at fired
      cases fired
      refine ⟨grown, by rw [nothing]; exact List.nil_prefix, .greeted _ phase before (Local.delivered_prefix _ _) ?_⟩
      simp [Local.Event.payload, arrived, taken, hello]
  | greeted said at_ greeted part taken =>
    obtain ⟨e, rfl⟩ := greeted.enabled (by rw [at_]; rfl) on
    change Local.serverRecvCb C s.conn e = .ok conn at fired
    cases arrived : e.recv with
    | eof => simp only [Local.serverRecvCb, arrived] at fired; cases fired
    | failed => simp only [Local.serverRecvCb, arrived] at fired; cases fired
    | wouldBlock =>
      simp only [Local.serverRecvCb, arrived] at fired
      cases fired
      refine ⟨grown, step.heard, .greeted said at_ greeted part ?_⟩
      simp [Local.Event.payload, arrived, taken]
    | data segment =>
      obtain ⟨whole, wrote, took, mid, before, request, reads⟩ := step.second at_ greeted part taken may arrived
      rw [reads] at fired
      have streaming := Local.request_streaming lawful method ivLen start.destAddr.header_valid before request fired
      obtain ⟨r, phase, -⟩ := streaming.phase
      refine ⟨grown, ?_, .relays [] ⟨r, phase⟩ streaming.header streaming.replies ?_ ?_ (by simp) fun _ => streaming⟩
      · rw [took, Served.wrote, streaming.replies]
        exact ⟨Local.fakeReply ++ conn.down.accepted, by simp [Local.opening]⟩
      · simp [Local.Event.payload, arrived, taken, whole]
      · rw [wrote]
        simp
  | relays later phase header replies taken front small streams =>
    obtain ⟨r, at_⟩ := phase
    have goes := Local.fire_goes at_ fired
    refine ⟨grown, ?_, .relays (later ++ e.payload) goes.phase (goes.header.trans header) (goes.replies.trans replies) ?_ ?_ ?_ fun limit => ?_⟩
    · refine step.heard.trans ?_
      rw [Served.wrote, Served.wrote, goes.replies]
      exact (List.prefix_append_right_inj _).mpr goes.accepted
    · simp only [taken, List.flatten_append, List.length_append]
      omega
    · rw [List.flatten_append, ← List.append_assoc]
      exact append_of_drop front (taken ▸ next)
    · intro seg mem
      rcases List.mem_append.mp mem with before | new
      · exact small seg before
      · exact Local.length_payload new
    · have streaming := streams (limit.mono (by
        rw [Local.framed_append, List.length_append]
        omega))
      refine Local.fire_streaming lawful ivLen streaming on ?_ fired
      rw [List.length_append]
      simpa [Local.opening] using limit

theorem inStep_served (C : Local.Config P) (iv : Bytes) (authInfo : List AuthInfo) (destAddr : BAddr) :
    InStep C iv (socksInit authInfo destAddr) (served C iv authInfo destAddr) :=
  ⟨SocksClient.grown_init authInfo destAddr, List.nil_prefix,
    .accepted rfl ⟨⟨rfl, length_balloc _ _, rfl⟩, rfl, rfl, rfl, rfl, rfl, rfl, rfl⟩ rfl⟩

theorem inStep_of_reach {authInfo : List AuthInfo} {destAddr : BAddr} (lawful : P.evp.Lawful) (method : C.E.method ≠ .table)
    (ivLen : iv.length = C.E.ivLen) (few : authInfo.length < 256)
    (reach : (servedMachine C).Reach inWhole (served C iv authInfo destAddr) s) : InStep C iv (socksInit authInfo destAddr) s := by
  apply reach.invariant (InStep C iv (socksInit authInfo destAddr)) (inStep_served C iv authInfo destAddr)
  intro s e s' step on may done
  cases e with
  | client e => exact step.client on done
  | server e => exact step.server lawful method ivLen few on may done

/-- All that the client can hear begins like this. -/
theorem InStep.wrote (step : InStep C iv start s) : ∃ more, s.wrote <+: [5, 0] ++ Local.fakeReply ++ more := by
  cases step.serving with
  | accepted _ greeted =>
    rw [Served.wrote, greeted.replies, greeted.undelivered]
    exact ⟨[], List.nil_prefix⟩
  | greeted said _ greeted part =>
    rw [Served.wrote, greeted.replies, greeted.undelivered, List.append_nil]
    exact ⟨[], part.trans (by simp)⟩
  | relays _ _ _ replies =>
    rw [Served.wrote, replies]
    exact ⟨s.conn.down.accepted, List.prefix_rfl⟩

/-- A client that is up is being served. -/
theorem InStep.up (step : InStep C iv start s) (up : s.client.state = .up) :
    (∃ r, s.conn.phase = .stream r) ∧ s.conn.header = some (start.destAddr.header.encode false) ∧
      s.client.got = [5, 0] ++ Local.fakeReply ∧ s.client.userGot <+: s.conn.down.accepted := by
  have heard := step.heard
  obtain ⟨more, wrote⟩ := step.wrote
  have got := reply_heard step.grown up (heard.trans wrote)
  have long : 12 ≤ s.wrote.length := by
    refine Nat.le_trans ?_ heard.length_le
    rw [SocksClient.took, got, List.length_append]
    exact Nat.le_add_right 12 _
  cases step.serving with
  | accepted _ greeted =>
    rw [Served.wrote, greeted.replies, greeted.undelivered] at long
    simp at long
  | greeted said _ greeted part =>
    rw [Served.wrote, greeted.replies, greeted.undelivered, List.append_nil] at long
    have short := part.length_le
    simp only [List.length_cons, List.length_nil] at short
    omega
  | relays _ phase header replies =>
    refine ⟨phase, header, got, ?_⟩
    rw [SocksClient.took, got, Served.wrote, replies] at heard
    exact (List.prefix_append_right_inj _).mp heard

end

variable {P : Platform} {C : Local.Config P} {iv : Bytes} {authInfo : List AuthInfo} {destAddr : BAddr} {s : Served P}

/-- ss-local makes no other header than that of the client's destination. A client that is up has its reply and its
connection, and what its user has received is what came from there. It does not refuse anything that ss-local says, and
ss-local does not fail on anything it says, if there is memory for a direct remote. -/
theorem handshake_agrees (lawful : P.evp.Lawful) (method : C.E.method ≠ .table) (ivLen : iv.length = C.E.ivLen)
    (known : AuthInfo.none ∈ authInfo) (few : authInfo.length < 256)
    (reach : (servedMachine C).Reach inWhole (served C iv authInfo destAddr) s) :
    (s.conn.header = none ∨ s.conn.header = some (destAddr.header.encode false)) ∧
    (s.client.state = .up → (∃ r, s.conn.phase = .stream r) ∧ s.conn.header = some (destAddr.header.encode false) ∧
      s.client.got = [5, 0] ++ Local.fakeReply ∧ s.client.userGot <+: s.conn.down.accepted) ∧
    (∀ data, servedEnabled s (.client (.recvDone data true)) = true → socksFire s.client (.recvDone data true) ≠ .error .error) ∧
    ∀ e, servedEnabled s (.server (.serverRecv e)) = true → inWhole s (.server (.serverRecv e)) → s.conn.phase.remote? = none →
      (e.resolved = true → e.created = true) → ¬ Local.Crashes (Local.serverRecvCb C s.conn e) := by
  have step := inStep_of_reach lawful method ivLen few reach
  refine ⟨?_, step.up, fun data on => ?_, fun e on may early created => ?_⟩
  · cases step.serving with
    | accepted _ greeted => exact .inl greeted.unopened.header
    | greeted _ _ greeted => exact .inl greeted.unopened.header
    | relays _ _ header => exact .inr header
  · simp only [servedEnabled, Bool.and_eq_true, List.isPrefixOf_iff_prefix] at on
    obtain ⟨on, next⟩ := on
    have off : s.client.state ≠ .up := by
      intro up
      simp [socksEnabled, up, SocksState.receives] at on
    have took : s.client.took = s.client.got := by rw [SocksClient.took, (step.grown.quiet off).2, List.append_nil]
    obtain ⟨more, wrote⟩ := step.wrote
    have heard := append_of_drop step.heard next
    rw [took] at heard
    simp only [SocksEvent.takes, SocksEvent.userTakes, List.append_nil] at heard
    exact not_refused step.grown known on (heard.trans wrote)
  · simp only [servedEnabled, Bool.and_eq_true] at on
    cases arrived : e.recv with
    | eof => simp [Local.serverRecvCb, arrived, Local.Crashes]
    | failed => simp [Local.serverRecvCb, arrived, Local.Crashes]
    | wouldBlock => simp [Local.serverRecvCb, arrived, Local.Crashes]
    | data segment =>
      cases step.serving with
      | accepted at_ greeted taken =>
        obtain ⟨-, -, mid, -, -, waits⟩ := step.first few at_ greeted taken may arrived
        simp [waits, Local.Crashes]
      | greeted said at_ greeted part taken =>
        obtain ⟨-, -, -, mid, before, holds, reads⟩ := step.second at_ greeted part taken may arrived
        rw [reads]
        refine (Local.request_settles lawful ivLen before.unopened (destAddr.header_valid) holds ?_).not_crashes
        unfold Local.Makes
        split
        · exact created
        · exact fun _ _ => ⟨method, .inl rfl⟩
      | relays _ phase =>
        obtain ⟨r, phase⟩ := phase
        rw [phase] at early
        cases early


/-! ## What the remote gets -/

/-- The client has said its greeting and its request once there is something behind them. -/
theorem sent_all {start c : SocksClient} {more behind : Bytes} (grown : SocksClient.Grown start c) (heard : c.took <+: [5, 0] ++ more)
    (front : start.hello ++ start.request ++ behind <+: c.wrote) : c.sent = start.hello ++ start.request := by
  have heard' : c.got <+: [5, 0] ++ more := (List.prefix_append _ _).trans heard
  have alone : c.state ≠ .up → c.wrote = c.sent := fun off => by rw [SocksClient.wrote, (grown.quiet off).1, List.append_nil]
  have long := front.length_le
  have some_ : 0 < start.request.length := List.length_pos_iff.mpr start.request_ne_nil
  have named : ∀ {ai : AuthInfo} {rest : Bytes}, c.got = [5, ai.type] ++ rest → ai = .none := by
    intro ai rest got
    rw [got] at heard'
    simp only [List.cons_append, List.nil_append, List.cons_prefix_cons] at heard'
    exact AuthInfo.eq_none_of_type heard'.2.1
  have whole : ∀ {ai : AuthInfo}, ai = .none → c.speech ai = start.hello ++ start.request := by
    rintro ai rfl
    rw [SocksClient.speech, AuthInfo.message, List.append_nil, grown.same_hello, grown.same_request]
  simp only [List.length_append] at long
  cases grown.progress with
  | connecting at_ _ sent =>
    rw [alone (by simp [at_]), sent, List.length_nil] at long
    omega
  | sendingHello at_ _ sent =>
    have size := congrArg List.length sent
    rw [alone (by simp [at_])] at long
    rw [List.length_append, grown.same_hello] at size
    omega
  | sentHello at_ _ _ _ sent =>
    rw [alone (by simp [at_]), sent, grown.same_hello] at long
    omega
  | sendingPassword ai _ isPassword _ _ _ got => exact absurd (named (got.trans (List.append_nil _).symm)) isPassword
  | sentPassword ai _ isPassword _ _ _ _ _ got => exact absurd (named got) isPassword
  | sendingRequest ai _ at_ more sent got =>
    have size := congrArg List.length sent
    have left : 0 < c.sending.length := List.length_pos_iff.mpr more
    rw [alone (by simp [at_])] at long
    rw [whole (named got), List.length_append, List.length_append] at size
    omega
  | sentRequest ai _ _ _ _ _ sent got => exact sent.trans (whole (named (got.trans (List.append_assoc _ _ _))))
  | receivedReplyHeader ai _ _ _ _ _ _ _ sent got =>
    rw [List.append_assoc, List.append_assoc] at got
    exact sent.trans (whole (named got))
  | up ai _ _ _ _ _ sent got => exact sent.trans (whole (named (got.trans (List.append_assoc _ _ _))))

theorem length_le_flatten {segs : List Bytes} (some_ : ∀ seg ∈ segs, 0 < seg.length) : segs.length ≤ segs.flatten.length := by
  induction segs with
  | nil => exact Nat.zero_le _
  | cons seg segs ih =>
    have pos := some_ seg List.mem_cons_self
    have rest := ih fun seg mem => some_ seg (List.mem_cons_of_mem _ mem)
    simp only [List.length_cons, List.flatten_cons, List.length_append]
    omega

/-- The chunks of segments of a socket, or the segments themselves, carry the segments. -/
theorem framed_carries (C : Local.Config P) (iv : Bytes) {segs : List Bytes} (small : ∀ seg ∈ segs, seg.length ≤ bufSize) :
    BodyOk P iv C.auth (Local.framed C iv false 0 segs) ∧ payloadOf P iv C.auth (Local.framed C iv false 0 segs) = segs.flatten := by
  have small' : ∀ seg ∈ segs, seg.length < 2 ^ 16 := fun seg mem => Nat.lt_of_le_of_lt (small seg mem) (by decide)
  unfold Local.framed
  cases auth : C.auth with
  | false =>
    refine ⟨fun no => ?_, rfl⟩
    cases no
  | true =>
    simp only [Bool.not_false, Bool.and_self, if_true]
    refine ⟨fun _ => ?_, Local.payloadOf_wire P iv small'⟩
    have parsed := (Framing.parse_wire (F := ota P iv) (fun seg mem => otaChunk_encodes P iv (small' seg mem)) 0
      (Framing.wire (otaChunk P iv) 0 segs).length).1
    rwa [List.take_length] at parsed

/-- `inWhole`, as a check. -/
def wholeCheck {P : Platform} (s : Served P) : ServedEvent → Bool
  | .server e => s.conn.phase.remote?.isSome || e.payload.all fun seg => seg == s.client.wrote.drop s.taken && s.client.sending.isEmpty
  | .client _ => true

theorem inWhole_of_check {P : Platform} (s : Served P) (e : ServedEvent) (fine : wholeCheck s e = true) : inWhole s e := by
  cases e with
  | client e => exact trivial
  | server e =>
    intro early seg mem
    simp only [wholeCheck, early, Option.isSome_none, Bool.false_or, List.all_eq_true, Bool.and_eq_true, beq_iff_eq,
      List.isEmpty_iff] at fine
    exact fine seg mem

/-- A client asks for 10.0.0.1:80 and its user sends three bytes. -/
def servedExample : List ServedEvent :=
  [.client (.connector false true true), .client (.sendDone 3 true), .server (.serverRecv { recv := .data Local.shortGreeting }),
    .client (.recvDone [5, 0] true), .client (.sendDone 10 true),
    .server (.serverRecv { recv := .data { bytes := [5, 1, 0, 1, 10, 0, 0, 1, 0, 80] } }), .server (.remoteSend true .full),
    .client (.recvDone [5, 0, 0] true), .client (.recvDone [1] true), .client (.recvDone [0, 0, 0, 0, 0, 0] true),
    .client (.userSent [71, 69, 84]), .server (.serverRecv { recv := .data { bytes := [71, 69, 84] } })]

theorem reach_servedExample : ∃ s, (servedMachine Local.rc4Config).Reach inWhole (served Local.rc4Config [] [.none] (.ipv4 ⟨0x0a000001, 80⟩)) s ∧
    s.client.state = .up ∧ s.client.userSent = [71, 69, 84] ∧ s.taken = 16 ∧ s.conn.up.accepted = s.conn.up.produced := by
  have ran : ((servedMachine Local.rc4Config).restrict wholeCheck).leadsTo (served Local.rc4Config [] [.none] (.ipv4 ⟨0x0a000001, 80⟩))
      servedExample (fun s => s.client.state == .up && s.client.userSent == [71, 69, 84] && s.taken == 16 &&
        s.conn.up.accepted == s.conn.up.produced) = true := by decide +kernel
  obtain ⟨s, ran, known⟩ := Machine.exists_of_leadsTo ran
  simp only [Bool.and_eq_true, beq_iff_eq] at known
  exact ⟨s, .of_restrict inWhole_of_check .refl ran, known.1.1.1, known.1.1.2, known.1.2, known.2⟩

theorem handshake_agrees_example : ∃ s, (servedMachine Local.rc4Config).Reach inWhole
    (served Local.rc4Config [] [.none] (.ipv4 ⟨0x0a000001, 80⟩)) s ∧ s.client.got = [5, 0] ++ Local.fakeReply := by
  obtain ⟨s, reach, up, -⟩ := reach_servedExample
  exact ⟨s, reach, ((handshake_agrees rc4_lawful (by decide) rfl (by decide) (by decide) reach).2.1 up).2.2.1⟩

end Shadowsocks.Tun2socks
