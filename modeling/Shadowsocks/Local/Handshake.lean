import Shadowsocks.Local.Talk

/-!
# How the client's stream is cut

The stages of `server_recv_cb` advance with every segment. A connection turns out as it
is meant to if the first segment holds the whole greeting, the segment with the first
byte of the request holds all of it, and what is behind the request there does no harm.
Otherwise the request is read at a wrong place, or is not all there, and then the length
of the rest wraps around.
-/

namespace Shadowsocks.Local
set_option autoImplicit false
open Lib

section
variable {P : Platform}

/-- What the client and the remote see of a connection: the replies, the address header
that was built, whether the remote is the destination itself, and the payload that was
forwarded. -/
structure Outcome where
  replies : Bytes
  header : Option Bytes
  direct : Option Bool
  payload : Bytes
  deriving DecidableEq, Repr

/-- The payload in what was sent: the server takes it out of the chunks. -/
def forwarded (C : Config P) (iv header plain : Bytes) (direct : Bool) : Bytes :=
  if direct then plain
  else payloadOf P iv C.auth (plain.drop (header.length + if C.auth then onetimeauthBytes else 0))

def Conn.outcome (C : Config P) (iv : Bytes) (conn : Conn P) : Outcome where
  replies := conn.replies
  header := conn.header
  direct := conn.phase.remote?.map Remote.direct
  payload := match conn.phase.remote? with
    | some r => forwarded C iv (conn.header.getD []) conn.plain r.direct
    | none => []

/-- What becomes of a connection on which these segments arrive. -/
def outcome (C : Config P) (iv : Bytes) (arrivals : List Arrival) : Except Stop Outcome :=
  (talk C (acceptCb C iv) arrivals).map (Conn.outcome C iv)

/-- What is meant to become of it. -/
def intended (C : Config P) (h : Header) (payload : Bytes) : Outcome where
  replies := [5, 0] ++ fakeReply
  header := some (h.encode false)
  direct := some (bypassed C h)
  payload := payload

/-- The part of a segment that stage 1 takes for the request. -/
def requestSegment (methods : Bytes) : List Bytes → Bytes
  | [] => []
  | first :: rest => if methods.length + 2 < first.length then first.drop (methods.length + 2) else rest.headD []

/-- The cuttings that do no harm. -/
structure GoodCut (C : Config P) (methods : Bytes) (h : Header) (segs : List Bytes) : Prop where
  greeting : methods.length + 2 ≤ (segs.headD []).length
  request : (connectRequest h).length ≤ (requestSegment methods segs).length
  harmless : Harmless C h ((requestSegment methods segs).drop (connectRequest h).length)
  alone : C.auth = true → bypassed C h = false → (requestSegment methods segs).drop (connectRequest h).length = []

variable {C : Config P} {iv : Bytes} {h : Header} {conn : Conn P} {direct : Bool} {sent : Bytes} {i : Nat}

theorem length_connectRequest (valid : h.Valid) : (connectRequest h).length = 6 + h.addr.body.length := by
  rw [connectRequest, List.length_append, Header.length_encode valid]
  simp only [List.length_cons, List.length_nil]
  omega

theorem Relaying.outcome (inv : Relaying C iv h direct sent i conn) : Conn.outcome C iv conn =
    { replies := [5, 0] ++ fakeReply, header := some (h.encode false), direct := some direct,
      payload := forwarded C iv (h.encode false) sent direct } := by
  obtain ⟨r, phase, rDirect, -, -⟩ := inv.phase
  simp only [Conn.outcome, phase, Phase.remote?, inv.known.replies, inv.known.header, inv.known.plain, Option.map_some,
    Option.getD_some, rDirect]

/-- A body of chunks has the payload of all of them. -/
theorem payloadOf_wire (P : Platform) (iv : Bytes) {segs : List Bytes} (small : ∀ s ∈ segs, s.length < 2 ^ 16) :
    payloadOf P iv true (Framing.wire (otaChunk P iv) 0 segs) = segs.flatten := by
  have parsed := (Framing.parse_wire (F := ota P iv) (fun s hs => otaChunk_encodes P iv (small s hs)) 0
    (Framing.wire (otaChunk P iv) 0 segs).length).2
  rw [List.take_length, Framing.arrived_all (Nat.le_refl _), List.take_length] at parsed
  rw [payloadOf, if_pos rfl, otaParse, parsed]

/-- Whatever is sent without loss is forwarded without loss. -/
theorem forwarded_clean {rest : Bytes} {segs : List Bytes} (valid : h.Valid)
    (clean : direct = true ∨ C.auth = false ∨ rest = []) (small : ∀ s ∈ segs, s.length < 2 ^ 16) :
    forwarded C iv (h.encode false) (firstData C iv h direct rest ++ framed C iv direct 0 segs) direct =
      rest ++ segs.flatten := by
  cases direct with
  | true => simp only [forwarded, firstData, framed, if_true, Bool.not_true, Bool.false_and, Bool.false_eq_true, if_false]
  | false =>
    have size : (h.encode false).length + (if C.auth = true then onetimeauthBytes else 0) =
        (head C.E iv h C.auth C.auth).length := by
      rw [length_head C.E iv valid, Header.length_encode valid]
      rfl
    simp only [forwarded, firstData, framed, Bool.false_eq_true, if_false, Bool.not_false, Bool.true_and, size]
    rw [List.append_assoc, List.drop_left' rfl]
    cases auth : C.auth with
    | false =>
      simp only [Bool.false_eq_true, if_false]
      rfl
    | true =>
      have empty : rest = [] := by
        rcases clean with no | no | empty
        · cases no
        · rw [auth] at no
          cases no
        · exact empty
      simp only [if_true, empty, List.nil_append]
      exact payloadOf_wire P iv small

theorem segments_small (as : List Arrival) : ∀ s ∈ segments as, s.length < 2 ^ 16 := by
  intro s mem
  obtain ⟨a, -, rfl⟩ := List.mem_map.mp mem
  have le := a.segment.le
  rw [bufSize] at le
  omega

theorem received_eq (as : List Arrival) : received as = (segments as).flatten := rfl

theorem length_framed_le (C : Config P) (iv : Bytes) (direct : Bool) (i : Nat) (segs : List Bytes) :
    (framed C iv direct i segs).length ≤ segs.flatten.length + 12 * segs.length := by
  induction segs generalizing i with
  | nil =>
    rw [framed_nil]
    exact Nat.zero_le _
  | cons s segs ih =>
    have later := ih (nextChunk C direct i)
    have here : (framed C iv direct i [s]).length ≤ s.length + 12 := by
      unfold framed
      split
      · simp only [Framing.wire, List.append_nil, length_otaChunk]
        omega
      · simp only [List.flatten_cons, List.flatten_nil, List.append_nil]
        omega
    rw [framed_cons, List.length_append, List.flatten_cons, List.length_append, List.length_cons]
    omega

/-! ## The request in its segment -/

/-- Stage 1 takes a segment for a request. -/
theorem serverRecvCb_request (a : Arrival) (before : Before C iv [5, 0] conn) (phase : conn.phase = .request) :
    ∃ mid, serverRecvCb C conn { recv := .data a.segment, encTmp := a.tmp } =
        request C mid { recv := .data a.segment, encTmp := a.tmp } ∧
      Before C iv [5, 0] mid ∧ mid.down.buf.Holds a.segment.bytes := by
  obtain ⟨buf, received, holds, -, size⟩ := Pipe.receive_spec a.segment (Nat.le_of_eq before.room.symm)
  refine ⟨{ conn with down := { conn.down with buf } }, ?_, ?_, holds⟩
  · simp only [serverRecvCb, phase, received, ok_bind]
    rfl
  · exact ⟨before.filling, before.idle, before.accepted, before.plain, before.ctx, size.trans before.room, before.replies⟩

section
variable {a : Arrival} {mid : Conn P} {x z : UInt8} {rest : Bytes}

/-- The request and everything behind it, if nothing is lost. -/
theorem talk_clean (as : List Arrival) (lawful : P.evp.Lawful) (ivLen : iv.length = C.E.ivLen) (valid : h.Valid) (filling : conn.up.filling = true)
    (step : serverRecvCb C conn { recv := .data a.segment, encTmp := a.tmp } =
      request C mid { recv := .data a.segment, encTmp := a.tmp })
    (before : Before C iv [5, 0] mid) (holds : mid.down.buf.Holds ([x, 1, z] ++ h.encode false ++ rest))
    (clean : choice C h rest = true ∨ C.auth = false ∨ rest = [])
    (limit : InLimit C.E ((h.encode false).length + rest.length + (received as).length + 12 * as.length + 10)) :
    ∃ conn', talk C conn (a :: as) = .ok conn' ∧ ∃ j, Relaying C iv h (choice C h rest)
      (firstData C iv h (choice C h rest) rest ++ framed C iv (choice C h rest) 0 (segments as)) j conn' := by
  have headLen : (firstData C iv h (choice C h rest) rest).length ≤ (h.encode false).length + rest.length + 10 := by
    unfold firstData
    split
    · omega
    · rw [List.length_append, length_head C.E iv valid, Header.length_encode valid]
      split <;> omega
  have bodyLen := length_framed_le C iv (choice C h rest) 0 (segments as)
  rw [← received_eq, show (segments as).length = as.length from List.length_map _] at bodyLen
  obtain ⟨opened, handled, inv⟩ := request_clean lawful ivLen a.segment a.tmp valid before holds clean
    (InLimit.mono limit (by omega))
  obtain ⟨conn', ran, relaying⟩ := talk_opened as filling (step.trans handled) inv
  obtain ⟨last, j, rest_, final⟩ := relaying.run lawful ivLen as
    (InLimit.mono limit (by rw [List.length_append]; omega))
  exact ⟨last, ran.trans rest_, j, final⟩

/-- Whatever the connection turns out to be, it is for the header that was read, and the
choice is the code's. -/
theorem talk_any {as : List Arrival} (lawful : P.evp.Lawful) (ivLen : iv.length = C.E.ivLen) (valid : h.Valid) (filling : conn.up.filling = true)
    (step : serverRecvCb C conn { recv := .data a.segment, encTmp := a.tmp } =
      request C mid { recv := .data a.segment, encTmp := a.tmp })
    (before : Before C iv [5, 0] mid) (holds : mid.down.buf.Holds ([x, 1, z] ++ h.encode false ++ rest))
    (limit : InLimit C.E ((h.encode false).length + rest.length + (received as).length + 12 * as.length + 10))
    {last : Conn P} (ran : talk C conn (a :: as) = .ok last) :
    ∃ sent j, Relaying C iv h (choice C h rest) sent j last := by
  by_cases clean : choice C h rest = true ∨ C.auth = false ∨ rest = []
  · obtain ⟨conn', ran', j, final⟩ := talk_clean as lawful ivLen valid filling step before holds clean limit
    rw [ran] at ran'
    cases ran'
    exact ⟨_, j, final⟩
  · rw [not_or, not_or] at clean
    obtain ⟨proxied, auth, some_⟩ := clean
    have proxied : choice C h rest = false := Bool.eq_false_iff.mpr proxied
    have auth : C.auth = true := by simpa using auth
    have bodyLen := length_framed_le C iv false 1 (segments as)
    rw [← received_eq, show (segments as).length = as.length from List.length_map _] at bodyLen
    rcases request_truncates lawful ivLen a.segment a.tmp valid before holds proxied auth
      (List.length_pos_iff.mpr some_) with ⟨t, failed⟩ | ⟨opened, handled, inv⟩
    · rw [talk_stop as filling (step.trans failed)] at ran
      cases ran
    · obtain ⟨conn', ran', relaying⟩ := talk_opened as filling (step.trans handled) inv
      have small : (head C.E iv h true true ++ (otaChunk P iv 0 rest).take rest.length ++
          framed C iv false 1 (segments as)).length ≤
            (h.encode false).length + rest.length + (received as).length + 12 * as.length + 10 := by
        have le := List.length_take_le rest.length (otaChunk P iv 0 rest)
        rw [List.length_append, List.length_append, length_head C.E iv valid, if_pos rfl, Header.length_encode valid]
        omega
      obtain ⟨last', j, rest_, final⟩ := relaying.run lawful ivLen as (InLimit.mono limit small)
      rw [ran'.trans rest_] at ran
      cases ran
      rw [proxied]
      exact ⟨_, j, final⟩

end

/-! ## One cutting -/

section
variable {methods payload : Bytes} {as : List Arrival}

theorem length_greeting (methods : Bytes) : (greeting methods).length = methods.length + 2 := by
  rw [greeting, List.length_append]
  exact Nat.add_comm _ _

/-- Stage 1 gets the request where it begins: in the second segment, or behind the greeting
in the first. -/
theorem request_reached (iv : Bytes) (method : C.E.method ≠ .table) (count : methods.length < 256) (valid : h.Valid)
    (cut : received as = greeting methods ++ connectRequest h ++ payload)
    (greets : methods.length + 2 ≤ ((segments as).headD []).length)
    (asks : (connectRequest h).length ≤ (requestSegment methods (segments as)).length) :
    ∃ (b : Arrival) (bs : List Arrival) (conn mid : Conn P) (rest : Bytes), conn.up.filling = true ∧
      serverRecvCb C conn { recv := .data b.segment, encTmp := b.tmp } =
        request C mid { recv := .data b.segment, encTmp := b.tmp } ∧
      Before C iv [5, 0] mid ∧ mid.down.buf.Holds (connectRequest h ++ rest) ∧ payload = rest ++ received bs ∧
      requestSegment methods (segments as) = connectRequest h ++ rest ∧ bs.length ≤ as.length ∧
      talk C (acceptCb C iv) as = talk C conn (b :: bs) := by
  have greetLen := length_greeting methods
  have reqLen := length_connectRequest valid
  match as with
  | [] =>
    have no := congrArg List.length cut
    rw [received_nil, List.length_append, List.length_append, greetLen, List.length_nil] at no
    omega
  | a :: bs =>
    have enough : methods.length + 2 ≤ a.segment.bytes.length := greets
    rw [received_cons, List.append_assoc] at cut
    by_cases more : methods.length + 2 < a.segment.bytes.length
    · -- the first segment goes beyond the greeting
      have found : requestSegment methods (segments (a :: bs)) = a.segment.bytes.drop (methods.length + 2) := if_pos more
      rw [found, List.length_drop] at asks
      obtain ⟨front, back⟩ := append_split (by rw [greetLen]; exact enough) cut
      rw [greetLen] at front back
      obtain ⟨inside, behind⟩ := append_split (by rw [List.length_drop]; exact asks) back.symm
      obtain ⟨buf, step, room, holds⟩ := serverRecvCb_greeting C iv a count front (by rw [List.length_drop]; omega)
      rw [inside] at holds
      exact ⟨a, bs, _, _, _, rfl, step, greeted_before C iv method room, holds, behind, found.trans inside,
        by rw [List.length_cons]; omega, rfl⟩
    · -- the first segment is the greeting
      have exact_ : a.segment.bytes.length = methods.length + 2 := by omega
      have found : requestSegment methods (segments (a :: bs)) = (segments bs).headD [] := if_neg more
      rw [found] at asks
      match bs with
      | [] =>
        simp only [segments, List.map_nil, List.headD_nil, List.length_nil] at asks
        omega
      | b :: cs =>
        have asks : (connectRequest h).length ≤ b.segment.bytes.length := asks
        obtain ⟨front, back⟩ := List.append_inj cut (exact_.trans greetLen.symm)
        rw [received_cons] at back
        obtain ⟨inside, behind⟩ := append_split asks back
        obtain ⟨buf, waited, room⟩ := talk_greeting C iv a (b :: cs) count ⟨received (b :: cs), cut⟩ (by omega)
        obtain ⟨mid, step, before, holds⟩ := serverRecvCb_request b (greeted_before C iv method room) rfl
        rw [inside] at holds
        exact ⟨b, cs, _, mid, _, rfl, step, before, holds, behind, found.trans inside,
          by simp only [List.length_cons]; omega, waited⟩

/-- A good cutting. -/
theorem outcome_of_goodCut (lawful : P.evp.Lawful) (method : C.E.method ≠ .table) (ivLen : iv.length = C.E.ivLen)
    (count : methods.length < 256) (valid : h.Valid)
    (cut : received as = greeting methods ++ connectRequest h ++ payload)
    (limit : InLimit C.E ((received as).length + 12 * as.length + 10)) (good : GoodCut C methods h (segments as)) :
    outcome C iv as = .ok (intended C h payload) := by
  have encLen : (connectRequest h).length = 3 + (h.encode false).length := by
    rw [connectRequest, List.length_append]
    rfl
  obtain ⟨b, bs, conn, mid, rest, filling, step, before, holds, split, found, fewer, same⟩ :=
    request_reached iv method count valid cut good.greeting good.request
  have behind : (requestSegment methods (segments as)).drop (connectRequest h).length = rest := by
    rw [found, List.drop_left' rfl]
  have harmless := good.harmless
  have alone := good.alone
  rw [behind] at harmless alone
  have chosen : choice C h rest = bypassed C h := choice_eq_bypassed.mpr harmless
  have clean : choice C h rest = true ∨ C.auth = false ∨ rest = [] := by
    cases direct : bypassed C h with
    | true => exact .inl (chosen.trans direct)
    | false =>
      cases auth : C.auth with
      | false => exact .inr (.inl rfl)
      | true => exact .inr (.inr (alone auth direct))
  have total : (received as).length = methods.length + 2 + (connectRequest h).length + payload.length := by
    rw [cut, List.length_append, List.length_append, length_greeting]
  have parts : payload.length = rest.length + (received bs).length := by rw [split, List.length_append]
  obtain ⟨last, ran, j, final⟩ := talk_clean bs lawful ivLen valid filling step before holds clean
    (InLimit.mono limit (by omega))
  rw [outcome, same, ran]
  refine congrArg Except.ok ?_
  rw [final.outcome, forwarded_clean valid clean (segments_small bs), ← received_eq, ← split, chosen]
  rfl

/-- `bytes` were taken for the request: they hold it and something harmless behind it, and with `later` they hold all the payload. -/
structure TakenRequest (C : Config P) (h : Header) (payload bytes later : Bytes) : Prop where
  request : (connectRequest h).length ≤ bytes.length
  harmless : Harmless C h (bytes.drop (connectRequest h).length)
  whole : (connectRequest h).length + payload.length = bytes.length + later.length

/-- The outcome that is meant, where there are no chunks, tells what was taken for the request: the header that was built names
the request, and the length of the payload the place where it was read. -/
theorem taken_of_outcome (lawful : P.evp.Lawful) (ivLen : iv.length = C.E.ivLen) (valid : h.Valid)
    (plainly : C.auth = false ∨ bypassed C h = true) {b : Arrival} {bs : List Arrival} {conn mid last : Conn P} {bytes : Bytes}
    (filling : conn.up.filling = true)
    (step : serverRecvCb C conn { recv := .data b.segment, encTmp := b.tmp } = request C mid { recv := .data b.segment, encTmp := b.tmp })
    (before : Before C iv [5, 0] mid) (holds : mid.down.buf.Holds bytes)
    (limit : InLimit C.E (bytes.length + (received bs).length + 12 * bs.length + 10))
    (ran : talk C conn (b :: bs) = .ok last) (meant : last.outcome C iv = intended C h payload) :
    TakenRequest C h payload bytes (received bs) := by
  have encLen : (connectRequest h).length = 3 + (h.encode false).length := by
    rw [connectRequest, List.length_append]
    rfl
  obtain ⟨next, handled⟩ : ∃ next, request C mid { recv := .data b.segment, encTmp := b.tmp } = .ok next := by
    cases handled : request C mid { recv := .data b.segment, encTmp := b.tmp } with
    | ok next => exact ⟨next, rfl⟩
    | error t =>
      rw [talk_stop bs filling (step.trans handled)] at ran
      cases ran
  obtain ⟨x, z, h', rest, valid', rfl⟩ := request_inv before holds handled
  have front : ([x, 1, z] ++ h'.encode false).length = 3 + (h'.encode false).length := by
    rw [List.length_append]
    rfl
  have len : ([x, 1, z] ++ h'.encode false ++ rest).length = 3 + (h'.encode false).length + rest.length := by
    rw [List.length_append, front]
  rw [len] at limit
  have enough : InLimit C.E ((h'.encode false).length + rest.length + (received bs).length + 12 * bs.length + 10) :=
    InLimit.mono limit (by omega)
  obtain ⟨sent, j, final⟩ := talk_any lawful ivLen valid' filling step before holds enough ran
  rw [final.outcome] at meant
  simp only [intended, Outcome.mk.injEq, Option.some.injEq, true_and] at meant
  obtain ⟨header, direct, forwarded⟩ := meant
  obtain rfl := Header.encode_injective valid' valid header
  have clean : choice C h' rest = true ∨ C.auth = false ∨ rest = [] :=
    plainly.elim (fun off => .inr (.inl off)) fun bypass => .inl (direct.trans bypass)
  obtain ⟨conn', ran', k, whole⟩ := talk_clean bs lawful ivLen valid' filling step before holds clean enough
  cases ran.symm.trans ran'
  -- the same connection has forwarded the rest and all that came later
  rw [← whole.known.plain.symm.trans final.known.plain, forwarded_clean valid' clean (segments_small bs), ← received_eq] at forwarded
  have behind : ([x, 1, z] ++ h'.encode false ++ rest).drop (connectRequest h').length = rest := List.drop_left' (front.trans encLen.symm)
  refine ⟨by omega, ?_, ?_⟩
  · rw [behind]
    exact choice_eq_bypassed.mp direct
  · rw [len, encLen, ← forwarded, List.length_append]
    omega

/-- A cutting whose request was taken from the segment in which it begins. -/
theorem TakenRequest.goodCut {later : Bytes} (taken : TakenRequest C h payload (requestSegment methods (segments as)) later)
    (greeting : methods.length + 2 ≤ ((segments as).headD []).length) (plainly : C.auth = false ∨ bypassed C h = true) :
    GoodCut C methods h (segments as) where
  greeting := greeting
  request := taken.request
  harmless := taken.harmless
  alone auth proxied := by
    rcases plainly with off | bypass
    · cases auth.symm.trans off
    · cases proxied.symm.trans bypass

/-- The other direction, where there are no chunks. -/
theorem goodCut_of_outcome (lawful : P.evp.Lawful) (method : C.E.method ≠ .table) (ivLen : iv.length = C.E.ivLen)
    (count : methods.length < 256) (valid : h.Valid)
    (cut : received as = greeting methods ++ connectRequest h ++ payload)
    (limit : InLimit C.E ((received as).length + 12 * as.length + 10)) (plainly : C.auth = false ∨ bypassed C h = true)
    (meant : outcome C iv as = .ok (intended C h payload)) : GoodCut C methods h (segments as) := by
  have greetLen := length_greeting methods
  have total : (received as).length = methods.length + 2 + (connectRequest h).length + payload.length := by
    rw [cut, List.length_append, List.length_append, greetLen]
  have asks : 0 < (connectRequest h).length := by
    rw [connectRequest, List.length_append]
    exact Nat.add_pos_left (by decide) _
  obtain ⟨last, ran, seen⟩ : ∃ last, talk C (acceptCb C iv) as = .ok last ∧ last.outcome C iv = intended C h payload := by
    unfold outcome at meant
    cases ran : talk C (acceptCb C iv) as with
    | error t =>
      rw [ran] at meant
      cases meant
    | ok last =>
      rw [ran] at meant
      exact ⟨last, rfl, Except.ok.inj meant⟩
  cases as with
  | nil =>
    rw [received_nil, List.length_nil] at total
    omega
  | cons a bs =>
    rw [received_cons, List.append_assoc] at cut
    rw [received_cons, List.length_append] at total limit
    rw [List.length_cons] at limit
    by_cases more : methods.length + 2 < a.segment.bytes.length
    · -- the first segment goes beyond the greeting
      have found : requestSegment methods (segments (a :: bs)) = a.segment.bytes.drop (methods.length + 2) := if_pos more
      obtain ⟨front, -⟩ := append_split (by rw [greetLen]; omega) cut
      rw [greetLen] at front
      obtain ⟨buf, step, room, holds⟩ := serverRecvCb_greeting C iv a count front (by rw [List.length_drop]; omega)
      have taken := taken_of_outcome lawful ivLen valid plainly rfl step (greeted_before C iv method room) holds
        (InLimit.mono limit (by rw [List.length_drop]; omega)) ran seen
      rw [← found] at taken
      exact taken.goodCut (Nat.le_of_lt more) plainly
    · obtain ⟨buf, waited, room⟩ := talk_greeting C iv a bs count ⟨received bs, cut⟩ (by omega)
      cases bs with
      | nil =>
        rw [received_nil, List.length_nil] at total
        omega
      | cons b cs =>
        have found : requestSegment methods (segments (a :: b :: cs)) = b.segment.bytes := if_neg more
        obtain ⟨mid, step, before, holds⟩ := serverRecvCb_request b (greeted_before C iv method room) rfl
        rw [received_cons, List.length_append] at total limit
        rw [List.length_cons] at limit
        have taken := taken_of_outcome lawful ivLen valid plainly rfl step before holds (InLimit.mono limit (by omega))
          (waited.symm.trans ran) seen
        -- the payload is all that is behind the request, so the greeting ends where the request begins
        have whole := taken.whole
        rw [← found] at taken
        exact taken.goodCut (show methods.length + 2 ≤ a.segment.bytes.length by omega) plainly

end

/-! ## Two cuttings -/

/-- Two good cuttings of one stream have the same outcome, the one that is meant. Where
the connection is direct or the client does not authenticate, no other cuttings have it. -/
theorem outcome_eq_of_goodCut {methods payload : Bytes} {as₁ as₂ : List Arrival} (lawful : P.evp.Lawful)
    (method : C.E.method ≠ .table) (ivLen : iv.length = C.E.ivLen) (count : methods.length < 256) (valid : h.Valid)
    (cut₁ : received as₁ = greeting methods ++ connectRequest h ++ payload)
    (cut₂ : received as₂ = greeting methods ++ connectRequest h ++ payload)
    (limit₁ : InLimit C.E ((received as₁).length + 12 * as₁.length + 10))
    (limit₂ : InLimit C.E ((received as₂).length + 12 * as₂.length + 10)) :
    (GoodCut C methods h (segments as₁) ∧ GoodCut C methods h (segments as₂) →
      outcome C iv as₁ = outcome C iv as₂ ∧ outcome C iv as₁ = .ok (intended C h payload)) ∧
    (C.auth = false ∨ bypassed C h = true →
      outcome C iv as₁ = outcome C iv as₂ ∧ outcome C iv as₁ = .ok (intended C h payload) →
        GoodCut C methods h (segments as₁) ∧ GoodCut C methods h (segments as₂)) := by
  constructor
  · rintro ⟨good₁, good₂⟩
    have meant₁ := outcome_of_goodCut lawful method ivLen count valid cut₁ limit₁ good₁
    have meant₂ := outcome_of_goodCut lawful method ivLen count valid cut₂ limit₂ good₂
    exact ⟨meant₁.trans meant₂.symm, meant₁⟩
  · rintro plainly ⟨same, meant⟩
    constructor
    · exact goodCut_of_outcome lawful method ivLen count valid cut₁ limit₁ plainly meant
    · exact goodCut_of_outcome lawful method ivLen count valid cut₂ limit₂ plainly (same.symm.trans meant)

end

/-- A destination that is not in the ACL. -/
def otherHost : Header := { addr := .ipv4 [10, 0, 0, 2], port := [0, 80] }

/-- A greeting with one method, a request for that destination and two bytes of payload, in
one segment. -/
def oneSegment : List Arrival :=
  [{ segment := { bytes := [5, 1, 0, 5, 1, 0, 1, 10, 0, 0, 2, 0, 80, 65, 66] } }]

/-- The same in three segments, cut behind the greeting and inside the payload. -/
def threeSegments : List Arrival :=
  [{ segment := shortGreeting }, { segment := { bytes := [5, 1, 0, 1, 10, 0, 0, 2, 0, 80, 65] } },
    { segment := { bytes := [66] } }]

/-- The same, cut inside the request. -/
def cutInside : List Arrival :=
  [{ segment := shortGreeting }, { segment := { bytes := [5, 1, 0, 1, 10, 0] } },
    { segment := { bytes := [0, 2, 0, 80, 65, 66] } }]

theorem harmless_short {P : Platform} {C : Config P} {h : Header} {rest : Bytes} (short : rest.length < 4) :
    Harmless C h rest := by
  unfold Harmless
  split
  · trivial
  · exact .inl short

theorem goodCut_oneSegment : GoodCut aclConfig [0] otherHost (segments oneSegment) :=
  ⟨by decide, by decide, harmless_short (by decide), fun no => by cases no⟩

theorem goodCut_threeSegments : GoodCut aclConfig [0] otherHost (segments threeSegments) :=
  ⟨by decide, by decide, harmless_short (by decide), fun no => by cases no⟩

theorem outcome_eq_of_goodCut_three : outcome aclConfig [] oneSegment = outcome aclConfig [] threeSegments := by
  have cut₁ : received oneSegment = greeting [0] ++ connectRequest otherHost ++ [65, 66] := by decide
  have cut₂ : received threeSegments = greeting [0] ++ connectRequest otherHost ++ [65, 66] := by decide
  have both := outcome_eq_of_goodCut (C := aclConfig) rc4_lawful (by decide) (show ([] : Bytes).length = _ from rfl)
    (by decide) (by decide) cut₁ cut₂ (fun no => by cases no) (fun no => by cases no)
  exact (both.1 ⟨goodCut_oneSegment, goodCut_threeSegments⟩).1

/-- A request that is cut ends the process: `buf->len` wraps around. -/
theorem outcome_cut_request :
    outcome aclConfig [] cutInside = .error (.crashed .outOfBounds) ∧
      outcome aclConfig [] oneSegment = .ok (intended aclConfig otherHost [65, 66]) ∧
      received cutInside = received oneSegment := by
  have cut : received oneSegment = greeting [0] ++ connectRequest otherHost ++ [65, 66] := by decide
  refine ⟨by decide +kernel, ?_, by decide⟩
  exact outcome_of_goodCut rc4_lawful (by decide) rfl (by decide) (by decide) cut (fun no => by cases no)
    goodCut_oneSegment

end Shadowsocks.Local
