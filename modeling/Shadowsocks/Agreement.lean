import Shadowsocks.Local.Handshake
import Shadowsocks.Server.Serve

/-!
# ss-local and ss-server agree on a request

A client asks ss-local for a destination and sends a payload; what ss-local puts on the
wire reaches ss-server cut anywhere behind the header. The server then reads the
destination that was asked for and forwards the payload, unless the client authenticates
and a part of the payload comes with the request: that part is cut short on its way.
-/

namespace Shadowsocks
set_option autoImplicit false
open Lib

section
variable {P : Platform}

/-- A client that asks for `h`, with `rest` in the segment of its request, and sends
`payload` in all. The greeting is in the first segment and the request in one segment. -/
structure Asks (methods : Bytes) (h : Header) (rest : Bytes) (as : List Arrival) (payload : Bytes) : Prop where
  count : methods.length < 256
  cut : received as = Local.greeting methods ++ Local.connectRequest h ++ payload
  greeting : methods.length + 2 ≤ ((Local.segments as).headD []).length
  request : Local.requestSegment methods (Local.segments as) = Local.connectRequest h ++ rest

/-- ss-local serves the client, and whatever way what it sends is cut behind the header,
ss-server reads the destination the client asked for, accepts everything and forwards the
payload. `iv` and `iv'` are what `rand_bytes` gives on the two sides. -/
def Agrees (C : Local.Config P) (S : Server.Config P) (iv iv' : Bytes) (h : Header) (as : List Arrival)
    (payload : Bytes) : Prop :=
  ∃ conn, Local.talk C (Local.acceptCb C iv) as = .ok conn ∧
    ∀ bs, received bs = conn.up.accepted → Server.Possible iv 0 bs →
      S.E.ivLen + (head C.E iv h C.auth C.auth).length ≤ Server.firstLook S.E.ivLen 0 bs →
      ∃ conn', Server.serve S (Server.acceptCb S iv') bs = .ok conn' ∧ conn'.header = some h ∧
        conn'.up.accepted = payload

variable {C : Local.Config P} {S : Server.Config P} {iv iv' : Bytes} {h : Header} {rest : Bytes}

/-- The server on what ss-local has sent: the payload of the body. -/
theorem serve_sent (iv' : Bytes) (lawful : P.evp.Lawful) (same : S.E = C.E) (method : C.E.method ≠ .table) (ivLen : iv.length = C.E.ivLen)
    (valid : h.Valid) (insists : S.auth = true → C.auth = true) {body : Bytes} (ok : BodyOk P iv C.auth body)
    (limit : InLimit C.E ((head C.E iv h C.auth C.auth).length + body.length)) {bs : List Arrival}
    (cut : received bs = ciphertext C.E iv (head C.E iv h C.auth C.auth ++ body)) (possible : Server.Possible iv 0 bs)
    (whole : S.E.ivLen + (head C.E iv h C.auth C.auth).length ≤ Server.firstLook S.E.ivLen 0 bs) :
    ∃ conn, Server.serve S (Server.acceptCb S iv') bs = .ok conn ∧ conn.header = some h ∧
      conn.up.accepted = payloadOf P iv C.auth body := by
  obtain ⟨E, text, auth⟩ := S
  dsimp only at same
  subst same
  have both : (auth || C.auth) = C.auth := by
    cases auth with
    | false => rfl
    | true => rw [insists rfl]; rfl
  let s : Server.ClientStream (P := P) { E := C.E, text, auth } :=
    { iv, header := h, flag := C.auth, body, ivLen, valid
      bodyOk := by rw [both]; exact ok
      limit := by rw [both]; exact limit }
  have headEq : s.head = head C.E iv h C.auth C.auth := congrArg (head C.E iv h C.auth) both
  have wireEq : s.wire = ciphertext C.E iv (head C.E iv h C.auth C.auth ++ body) := by
    rw [Server.ClientStream.wire, Server.ClientStream.plain, headEq]
  let c : Server.Cutting s := { arrivals := bs, cut := cut.trans wireEq.symm, possible }
  have there : c.HeaderWhole := by
    rw [Server.Cutting.HeaderWhole, headEq]
    exact whole
  obtain ⟨conn, served, header, accepted⟩ := Server.serve_whole lawful method iv' c there
  refine ⟨conn, served, header, accepted.trans ?_⟩
  exact congrArg (fun on => payloadOf P iv on body) both

/-- Nothing is lost if the client does not authenticate, or nothing comes with the request. -/
theorem agrees_of_clean (lawful : P.evp.Lawful) (same : S.E = C.E) (method : C.E.method ≠ .table)
    (ivLen : iv.length = C.E.ivLen) (valid : h.Valid) (insists : S.auth = true → C.auth = true)
    (proxied : Local.choice C h rest = false) (clean : C.auth = false ∨ rest = []) {methods payload : Bytes}
    {as : List Arrival} (asks : Asks methods h rest as payload)
    (limit : InLimit C.E ((received as).length + 12 * as.length + 10)) : Agrees C S iv iv' h as payload := by
  have encLen : (Local.connectRequest h).length = 3 + (h.encode false).length := by
    rw [Local.connectRequest, List.length_append]
    rfl
  have total : (received as).length = methods.length + 2 + (Local.connectRequest h).length + payload.length := by
    rw [asks.cut, List.length_append, List.length_append, Local.length_greeting]
  obtain ⟨b, bs, conn, mid, rest', filling, step, before, holds, split, found, fewer, ran⟩ :=
    Local.request_reached iv method asks.count valid asks.cut asks.greeting
      (by rw [asks.request, List.length_append]; exact Nat.le_add_right _ _)
  have sameRest : rest = rest' := List.append_cancel_left (asks.request.symm.trans found)
  subst sameRest
  have parts : payload.length = rest.length + (received bs).length := by rw [split, List.length_append]
  obtain ⟨last, talked, j, final⟩ := Local.talk_clean bs lawful ivLen valid filling step before holds (.inr clean)
    (InLimit.mono limit (by omega))
  rw [proxied] at final
  have sent : Local.firstData C iv h false rest ++ Local.framed C iv false 0 (Local.segments bs) =
      head C.E iv h C.auth C.auth ++ (rest ++ Local.framed C iv false 0 (Local.segments bs)) := by
    rw [Local.firstData, if_neg (by decide), List.append_assoc]
  have bodyLen := Local.length_framed_le C iv false 0 (Local.segments bs)
  rw [← Local.received_eq, show (Local.segments bs).length = bs.length from List.length_map _] at bodyLen
  have small := Local.segments_small bs
  -- the body is the payload, or the chunks of the later segments
  have body : BodyOk P iv C.auth (rest ++ Local.framed C iv false 0 (Local.segments bs)) ∧
      payloadOf P iv C.auth (rest ++ Local.framed C iv false 0 (Local.segments bs)) = payload := by
    unfold Local.framed
    cases auth : C.auth with
    | false => exact ⟨fun no => (by cases no), split.symm⟩
    | true =>
      have empty : rest = [] := by
        rcases clean with off | empty
        · rw [auth] at off
          cases off
        · exact empty
      rw [split, empty]
      simp only [Bool.not_false, Bool.and_self, if_true, List.nil_append]
      refine ⟨fun _ => ?_, Local.payloadOf_wire P iv small⟩
      have parsed := (Framing.parse_wire (F := ota P iv) (fun s hs => otaChunk_encodes P iv (small s hs)) 0
        (Framing.wire (otaChunk P iv) 0 (Local.segments bs)).length).1
      rw [List.take_length] at parsed
      exact parsed
  refine ⟨last, ran.trans talked, fun cs cut possible whole => ?_⟩
  rw [final.accepted, Local.onWire, if_neg (by decide), sent] at cut
  obtain ⟨conn', served, header, accepted⟩ := serve_sent iv' lawful same method ivLen valid insists body.1
    (InLimit.mono limit (by
      rw [List.length_append, length_head C.E iv valid]
      have enc := Header.length_encode valid false
      split <;> omega)) cut possible whole
  exact ⟨conn', served, header, accepted.trans body.2⟩

theorem eq_nil_of_received {as : List Arrival} (nothing : received as = []) : as = [] := by
  cases as with
  | nil => rfl
  | cons a as =>
    have pos := a.segment.pos
    rw [received_cons, List.append_eq_nil_iff] at nothing
    rw [nothing.1] at pos
    cases pos

theorem greeting_fits {methods : Bytes} (greets : methods.length < 256) :
    0 < (Local.greeting methods).length ∧ (Local.greeting methods).length ≤ bufSize := by
  rw [Local.length_greeting, bufSize]
  omega

theorem request_pos (h : Header) (rest : Bytes) : 0 < (Local.connectRequest h ++ rest).length := by
  rw [List.length_append, Local.connectRequest, List.length_append]
  simp only [List.length_cons, List.length_nil]
  omega

/-- A segment for each of the greeting and the request. -/
def twoSegments (methods rest : Bytes) (h : Header) (greets : methods.length < 256)
    (asks : (Local.connectRequest h ++ rest).length ≤ bufSize) : List Arrival :=
  [{ segment := { bytes := Local.greeting methods, pos := (greeting_fits greets).1, le := (greeting_fits greets).2 } },
    { segment := { bytes := Local.connectRequest h ++ rest, pos := request_pos h rest, le := asks } }]

theorem asks_twoSegments {methods : Bytes} (greets : methods.length < 256)
    (fits : (Local.connectRequest h ++ rest).length ≤ bufSize) :
    Asks methods h rest (twoSegments methods rest h greets fits) rest where
  count := greets
  cut := by
    simp only [twoSegments, received_cons, received_nil, List.append_nil, List.append_assoc]
  greeting := Nat.le_of_eq (Local.length_greeting methods).symm
  request := by
    have equal : ¬ methods.length + 2 < (Local.greeting methods).length := by
      rw [Local.length_greeting]
      omega
    exact if_neg equal

/-- A stream cut in two. -/
def cutInTwo (wire : Bytes) (n : Nat) (front : 0 < n ∧ n ≤ bufSize)
    (back : 0 < wire.length - n ∧ wire.length - n ≤ bufSize) : List Arrival :=
  [{ segment := { bytes := wire.take n
                  pos := by rw [List.length_take]; omega
                  le := by rw [List.length_take]; omega } },
    { segment := { bytes := wire.drop n
                   pos := by rw [List.length_drop]; omega
                   le := by rw [List.length_drop]; omega } }]

/-- The first chunk, cut short by its length and its tag, is no bad one, and releases nothing. -/
theorem otaParse_truncated (P : Platform) (iv : Bytes) {rest : Bytes} (small : rest.length < 2 ^ 16) :
    (otaParse P iv ((otaChunk P iv 0 rest).take rest.length)).ok = true ∧
      (otaParse P iv ((otaChunk P iv 0 rest).take rest.length)).frames = [] := by
  have encodes : ∀ c ∈ [rest], Framing.Encodes (ota P iv) (otaChunk P iv) c := by
    intro c mem
    rw [List.mem_singleton] at mem
    subst mem
    exact otaChunk_encodes P iv small
  have parsed := Framing.parse_wire encodes 0 rest.length
  rw [show Framing.wire (otaChunk P iv) 0 [rest] = otaChunk P iv 0 rest from List.append_nil _] at parsed
  have none_ : Framing.arrived (otaChunk P iv) 0 [rest] rest.length = 0 := by
    rw [Framing.arrived, if_neg (by rw [length_otaChunk]; omega)]
  rw [none_, List.take_zero] at parsed
  exact parsed

/-- A new server may receive a stream that is cut in two behind its IV, and looks at the first
part of it at once. -/
theorem cutInTwo_possible (wire : Bytes) {iv : Bytes} {n : Nat} (behind : iv.length < n) (front : 0 < n ∧ n ≤ bufSize)
    (back : 0 < wire.length - n ∧ wire.length - n ≤ bufSize) (ivLen : Nat) :
    received (cutInTwo wire n front back) = wire ∧ Server.Possible iv 0 (cutInTwo wire n front back) ∧
      n ≤ Server.firstLook ivLen 0 (cutInTwo wire n front back) := by
  have firstLen : (wire.take n).length = n := by
    rw [List.length_take]
    omega
  have unknown : iv ∉ (cacheCreate Unit 1024).keys := by simp [cacheCreate, Cache.keys]
  refine ⟨?_, ?_, ?_⟩
  · simp only [cutInTwo, received_cons, received_nil, List.append_nil, List.take_append_drop]
  · intro _
    rw [firstLen]
    exact ⟨by omega, unknown, fun no => by omega⟩
  · simp only [cutInTwo, Server.firstLook, firstLen]
    rw [if_pos (Nat.zero_le _)]
    split <;> omega

/-- A part of the payload that comes with the request does not reach the destination. -/
theorem not_agrees_of_pipelined (lawful : P.evp.Lawful) (same : S.E = C.E) (method : C.E.method ≠ .table)
    (ivLen : iv.length = C.E.ivLen) (valid : h.Valid) (proxied : Local.choice C h rest = false)
    (fits : (Local.connectRequest h ++ rest).length ≤ bufSize) (auth : C.auth = true) (some_ : rest ≠ [])
    {methods : Bytes} (greets : methods.length < 256) :
    ¬ Agrees C S iv iv' h (twoSegments methods rest h greets fits) rest := by
  rintro ⟨conn, talked, served⟩
  have asks := asks_twoSegments greets fits
  have pos : 0 < rest.length := List.length_pos_iff.mpr some_
  have cap : bufSize = 2048 := rfl
  have headLen := length_head_le C.E iv valid true true
  have headPos := length_head C.E iv valid true true
  have ivShort := C.E.ivLen_le
  have small : rest.length ≤ bufSize := by
    rw [List.length_append] at fits
    omega
  obtain ⟨b, bs, start, mid, rest', filling, step, before, holds, split, found, -, ran⟩ :=
    Local.request_reached iv method asks.count valid asks.cut asks.greeting
      (by rw [asks.request, List.length_append]; exact Nat.le_add_right _ _)
  have sameRest : rest = rest' := List.append_cancel_left (asks.request.symm.trans found)
  subst sameRest
  have last : bs = [] := by
    apply eq_nil_of_received
    have len := congrArg List.length split
    rw [List.length_append] at len
    exact List.eq_nil_of_length_eq_zero (by omega)
  subst last
  rw [ran] at talked
  rcases Local.request_truncates lawful ivLen b.segment b.tmp valid before holds proxied auth pos with
    ⟨t, failed⟩ | ⟨opened, handled, inv⟩
  · rw [Local.talk_stop [] filling (step.trans failed)] at talked
    cases talked
  · obtain ⟨conn', ran', relaying⟩ := Local.talk_opened [] filling (step.trans handled) inv
    rw [ran'] at talked
    cases talked
    -- the server reads the header, and then waits for the end of the chunk
    have bodyLen : ((otaChunk P iv 0 rest).take rest.length).length = rest.length := by
      rw [List.length_take, length_otaChunk]
      omega
    obtain ⟨unbroken, released⟩ := otaParse_truncated P iv (show rest.length < 2 ^ 16 by omega)
    have ok : BodyOk P iv C.auth ((otaChunk P iv 0 rest).take rest.length) := fun _ => unbroken
    have empty : payloadOf P iv C.auth ((otaChunk P iv 0 rest).take rest.length) = [] := by
      rw [payloadOf, if_pos auth, released]
      rfl
    have wire : conn.up.accepted =
        ciphertext C.E iv (head C.E iv h C.auth C.auth ++ (otaChunk P iv 0 rest).take rest.length) := by
      rw [relaying.accepted, Local.onWire, if_neg (by decide), auth]
    have wireLen : conn.up.accepted.length = C.E.ivLen + (head C.E iv h true true).length + rest.length := by
      rw [wire, ciphertext_eq, List.length_append, length_cipherBody lawful, List.length_append, bodyLen, ivLen, auth]
      omega
    have limit : 2 ^ 38 ≤ C.E.method.streamLimit := by cases C.E.method <;> decide
    have behind : iv.length < C.E.ivLen + (head C.E iv h true true).length := by omega
    obtain ⟨cut, possible, look⟩ := cutInTwo_possible conn.up.accepted behind (by omega) (by omega) S.E.ivLen
    have whole := Nat.le_trans (Nat.le_of_eq (show S.E.ivLen + (head C.E iv h C.auth C.auth).length =
      C.E.ivLen + (head C.E iv h true true).length by rw [same, auth])) look
    obtain ⟨final, done, -, all⟩ := served _ cut possible whole
    obtain ⟨final', done', -, nothing⟩ := serve_sent iv' lawful same method ivLen valid (fun _ => auth) ok
      (fun _ => by rw [auth, bodyLen]; omega) (cut.trans wire) possible whole
    rw [done] at done'
    cases done'
    rw [empty] at nothing
    exact some_ (all.symm.trans nothing)

/-- For a request with `rest` behind it in its segment, the two programs agree whatever
the client sends later exactly if it does not authenticate or `rest` is empty. The server
asks for authentication only if the client does it. -/
theorem agreement (iv' : Bytes) (lawful : P.evp.Lawful) (same : S.E = C.E) (method : C.E.method ≠ .table) (ivLen : iv.length = C.E.ivLen)
    (valid : h.Valid) (insists : S.auth = true → C.auth = true) (proxied : Local.choice C h rest = false)
    (fits : (Local.connectRequest h ++ rest).length ≤ bufSize) :
    (∀ methods as payload, Asks methods h rest as payload →
      InLimit C.E ((received as).length + 12 * as.length + 10) → Agrees C S iv iv' h as payload) ↔
    (C.auth = false ∨ rest = []) := by
  constructor
  · intro agrees
    by_contra no
    rw [not_or] at no
    have auth : C.auth = true := by simpa using no.1
    have greets : ([0] : Bytes).length < 256 := by decide
    refine not_agrees_of_pipelined lawful same method ivLen valid proxied fits auth no.2 greets
      (agrees [0] _ rest (asks_twoSegments greets fits) ?_)
    intro _
    have limit : 2 ^ 38 ≤ C.E.method.streamLimit := by cases C.E.method <;> decide
    rw [bufSize] at fits
    simp only [twoSegments, received_cons, received_nil, List.append_nil, List.length_append, List.length_cons,
      List.length_nil, Local.length_greeting] at fits ⊢
    omega
  · intro clean methods as payload asks limit
    exact agrees_of_clean lawful same method ivLen valid insists proxied clean asks limit

end

/-- A server with the settings of the client. -/
def Server.matching {P : Platform} (C : Local.Config P) : Server.Config P := { E := C.E, text := C.text, auth := C.auth }

/-- One byte with the request and one later, without authentication. -/
theorem agreement_threeSegments :
    Agrees Local.aclConfig (Server.matching Local.aclConfig) [] [] Local.otherHost Local.threeSegments [65, 66] := by
  have asks : Asks [0] Local.otherHost [65] Local.threeSegments [65, 66] :=
    ⟨by decide, by decide, by decide, by decide⟩
  have agrees := agreement (C := Local.aclConfig) (S := Server.matching Local.aclConfig) (h := Local.otherHost)
    [] rc4_lawful rfl (by decide) (show ([] : Bytes).length = _ from rfl) (by decide) (fun auth => auth)
    (show Local.choice Local.aclConfig Local.otherHost [65] = false by decide +kernel) (by decide)
  exact agrees.mpr (.inl rfl) [0] _ _ asks (fun no => by cases no)

/-- ss-local with authentication. -/
def Local.otaConfig : Local.Config rc4Platform := { Local.aclConfig with auth := true }

/-- The same request with authentication and with two bytes behind it: they do not arrive. -/
theorem agreement_fails :
    Asks [0] Local.otherHost [65, 66] (twoSegments [0] [65, 66] Local.otherHost (by decide) (by decide)) [65, 66] ∧
    ¬ Agrees Local.otaConfig (Server.matching Local.otaConfig) [] [] Local.otherHost
      (twoSegments [0] [65, 66] Local.otherHost (by decide) (by decide)) [65, 66] := by
  refine ⟨asks_twoSegments (by decide) (by decide), ?_⟩
  exact not_agrees_of_pipelined rc4_lawful rfl (by decide) rfl (by decide)
    (show Local.choice Local.otaConfig Local.otherHost [65, 66] = false by decide +kernel) (by decide) rfl (by decide)
    (by decide)

end Shadowsocks
