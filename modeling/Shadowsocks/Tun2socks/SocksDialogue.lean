import Shadowsocks.Tun2socks.SocksClient

/-!
# What the SOCKS client says and hears

Whatever way the connection cuts them, the client sends its greeting, its password if the server
wants one, and its request, each after the answer to the one before, and takes from the connection
the answers and nothing behind them. It gives up on bytes that do not begin such answers, and on no
others.
-/

namespace Shadowsocks.Tun2socks
set_option autoImplicit false
open Lib

/-! ## Answers of a server -/

/-- What the client sends for a method, before its request. -/
def AuthInfo.message : AuthInfo → Bytes
  | .none => []
  | .password user pass => SocksClient.passwordPacket user pass

/-- The answer to it. -/
def AuthInfo.answer : AuthInfo → Bytes
  | .none => []
  | .password .. => [1, 0]

/-- Name and password have at most 255 bytes. -/
def AuthInfo.fits : AuthInfo → Bool
  | .none => true
  | .password user pass => SocksClient.passwordFits user pass

/-- A reply to a request can end with a bound address of so many bytes. -/
def Bound (atyp : UInt8) (len : Nat) : Prop := atyp = 1 ∧ len = 6 ∨ atyp = 4 ∧ len = 18

/-- A reply that reports success. -/
def IsReply (reply : Bytes) : Prop := ∃ rsv atyp bound, reply = [5, 0, rsv, atyp] ++ bound ∧ Bound atyp bound.length

namespace SocksClient
variable {c c' : SocksClient}

/-- The client goes on with `ai` if the server names its method. -/
def Chooses (c : SocksClient) (ai : AuthInfo) : Prop :=
  c.authInfo.find? (fun ai' => ai'.type == ai.type) = some ai ∧ ai.fits = true

/-- All that a server can answer until the client is up. -/
def Answers (c : SocksClient) (heard : Bytes) : Prop :=
  ∃ ai reply, c.Chooses ai ∧ IsReply reply ∧ heard = [5, ai.type] ++ ai.answer ++ reply

/-- All that the client sends until then. -/
def speech (c : SocksClient) (ai : AuthInfo) : Bytes := c.hello ++ ai.message ++ c.request

/-- How far the client has come, with what has gone each way. -/
inductive Progress (c : SocksClient) : Prop where
  | connecting (at_ : c.state = .connecting) (idle : c.sending = []) (sent : c.sent = []) (got : c.got = [])
  | sendingHello (at_ : c.state = .sendingHello) (more : c.sending ≠ []) (sent : c.sent ++ c.sending = c.hello) (got : c.got = [])
  | sentHello (at_ : c.state = .sentHello) (idle : c.sending = []) (total : c.recvTotal = 2) (short : c.buffer.length < 2)
      (sent : c.sent = c.hello) (got : c.got = c.buffer)
  | sendingPassword (ai : AuthInfo) (chosen : c.Chooses ai) (named : ai ≠ .none) (at_ : c.state = .sendingPassword)
      (more : c.sending ≠ []) (sent : c.sent ++ c.sending = c.hello ++ ai.message) (got : c.got = [5, ai.type])
  | sentPassword (ai : AuthInfo) (chosen : c.Chooses ai) (named : ai ≠ .none) (at_ : c.state = .sentPassword)
      (idle : c.sending = []) (total : c.recvTotal = 2) (short : c.buffer.length < 2) (sent : c.sent = c.hello ++ ai.message)
      (got : c.got = [5, ai.type] ++ c.buffer)
  | sendingRequest (ai : AuthInfo) (chosen : c.Chooses ai) (at_ : c.state = .sendingRequest) (more : c.sending ≠ [])
      (sent : c.sent ++ c.sending = c.speech ai) (got : c.got = [5, ai.type] ++ ai.answer)
  | sentRequest (ai : AuthInfo) (chosen : c.Chooses ai) (at_ : c.state = .sentRequest) (idle : c.sending = [])
      (total : c.recvTotal = 4) (short : c.buffer.length < 4) (sent : c.sent = c.speech ai)
      (got : c.got = [5, ai.type] ++ ai.answer ++ c.buffer)
  | receivedReplyHeader (ai : AuthInfo) (chosen : c.Chooses ai) (rsv atyp : UInt8) (at_ : c.state = .receivedReplyHeader)
      (idle : c.sending = []) (bound : Bound atyp c.recvTotal) (short : c.buffer.length < c.recvTotal) (sent : c.sent = c.speech ai)
      (got : c.got = [5, ai.type] ++ ai.answer ++ [5, 0, rsv, atyp] ++ c.buffer)
  | up (ai : AuthInfo) (chosen : c.Chooses ai) (reply : Bytes) (whole : IsReply reply) (at_ : c.state = .up) (idle : c.sending = [])
      (sent : c.sent = c.speech ai) (got : c.got = [5, ai.type] ++ ai.answer ++ reply)

theorem hello_ne_nil (c : SocksClient) : c.hello ≠ [] := by simp [hello]

theorem request_ne_nil (c : SocksClient) : c.request ≠ [] := by
  unfold request
  split <;> simp

/-- The client goes on if there is memory for the next message. -/
theorem reserveBuffer_eq_ok {reserved : Bool} {rest : SocksClient} : reserveBuffer reserved rest = .ok c' ↔ reserved = true ∧ rest = c' := by
  cases reserved <;> simp [reserveBuffer]

theorem reserveBuffer_ne_asserted (reserved : Bool) (rest : SocksClient) : reserveBuffer reserved rest ≠ .error .asserted := by
  cases reserved <;> simp [reserveBuffer]

/-- The two bytes of a short answer. -/
theorem pair_of_length {buffer : Bytes} (len : buffer.length = 2) : buffer = [buffer.getD 0 0, buffer.getD 1 0] := by
  match buffer, len with
  | [a, b], _ => rfl

/-- The four bytes at the front of a reply. -/
theorem four_of_length {buffer : Bytes} (len : buffer.length = 4) :
    buffer = [buffer.getD 0 0, buffer.getD 1 0, buffer.getD 2 0, buffer.getD 3 0] := by
  match buffer, len with
  | [a, b, d, e], _ => rfl

/-! ## A message that is complete -/

/-- The client with the method the server has named. -/
def goOn (c : SocksClient) : AuthInfo → SocksClient
  | .none => c.send c.request .sendingRequest
  | .password username password => c.send (passwordPacket username password) .sendingPassword

/-- What becomes of the method that the server names. -/
inductive Named (c : SocksClient) (reserved : Bool) : Except SocksEnded SocksClient → Prop where
  | chosen (ai : AuthInfo) (fits : c.Chooses ai) (heard : c.buffer = [5, ai.type]) : Named c reserved (reserveBuffer reserved (c.goOn ai))
  | refused (none_ : ∀ ai, c.Chooses ai → c.buffer ≠ [5, ai.type]) : Named c reserved (.error .error)

/-- The answer to the greeting names a method that was offered, or ends the conversation. -/
theorem received_sentHello (at_ : c.state = .sentHello) (full : c.buffer.length = 2) (reserved : Bool) :
    Named c reserved (c.received reserved) := by
  have two := pair_of_length full
  unfold received
  rw [at_]
  dsimp only
  split
  · rename_i version
    apply Named.refused
    intro ai _ same
    simp [same] at version
  rename_i version
  rw [Decidable.not_not] at version
  split
  · rename_i nobody
    apply Named.refused
    rintro ai ⟨found, -⟩ same
    simp [same, found] at nobody
  · rename_i found
    have typ : AuthInfo.none.type = c.buffer.getD 1 0 := by simpa using List.find?_some found
    exact .chosen .none ⟨by rw [typ]; exact found, rfl⟩ (by rw [two, version, typ])
  · rename_i username password found
    have typ : (AuthInfo.password username password).type = c.buffer.getD 1 0 := by simpa using List.find?_some found
    split
    · rename_i long
      apply Named.refused
      rintro ai ⟨found', fits⟩ same
      simp only [same, List.getD_cons_succ, List.getD_cons_zero, found', Option.some.injEq] at found
      rw [found, AuthInfo.fits] at fits
      simp [fits] at long
    · rename_i fits
      exact .chosen (.password username password) ⟨by rw [typ]; exact found, by simpa [AuthInfo.fits] using fits⟩ (by rw [two, version, typ])

/-- What becomes of the answer to a password. -/
inductive Checked (c : SocksClient) (reserved : Bool) : Except SocksEnded SocksClient → Prop where
  | passed (heard : c.buffer = [1, 0]) : Checked c reserved (reserveBuffer reserved (c.send c.request .sendingRequest))
  | refused (other : c.buffer ≠ [1, 0]) : Checked c reserved (.error .error)

/-- The answer to a password packet is looked at. -/
theorem received_sentPassword (at_ : c.state = .sentPassword) (full : c.buffer.length = 2) (reserved : Bool) :
    Checked c reserved (c.received reserved) := by
  have two := pair_of_length full
  unfold received
  rw [at_]
  dsimp only
  split
  · rename_i version
    exact .refused fun same => by simp [same] at version
  rename_i version
  rw [Decidable.not_not] at version
  split
  · rename_i status
    exact .refused fun same => by simp [same] at status
  · rename_i status
    rw [Decidable.not_not] at status
    exact .passed (by rw [two, version, status])

/-- What becomes of the header of a reply. -/
inductive Headed (c : SocksClient) : Except SocksEnded SocksClient → Prop where
  | succeeded (rsv atyp : UInt8) (len : Nat) (heard : c.buffer = [5, 0, rsv, atyp]) (bound : Bound atyp len) :
      Headed c (.ok (c.startReceive len .receivedReplyHeader))
  | refused (other : ∀ rsv atyp len, Bound atyp len → c.buffer ≠ [5, 0, rsv, atyp]) : Headed c (.error .error)

/-- The front of the reply tells how long the rest is. -/
theorem received_sentRequest (at_ : c.state = .sentRequest) (full : c.buffer.length = 4) (reserved : Bool) :
    Headed c (c.received reserved) := by
  have four := four_of_length full
  unfold received
  rw [at_]
  dsimp only
  split
  · rename_i version
    exact .refused fun _ _ _ _ same => by simp [same] at version
  rename_i version
  rw [Decidable.not_not] at version
  split
  · rename_i rep
    exact .refused fun _ _ _ _ same => by simp [same] at rep
  rename_i rep
  rw [Decidable.not_not] at rep
  rw [version, rep] at four
  split
  · rename_i typ
    rw [typ] at four
    exact .succeeded _ _ _ four (.inl ⟨rfl, rfl⟩)
  rename_i not4
  split
  · rename_i typ
    rw [typ] at four
    exact .succeeded _ _ _ four (.inr ⟨rfl, rfl⟩)
  · rename_i not6
    apply Headed.refused
    rintro rsv atyp len (⟨rfl, -⟩ | ⟨rfl, -⟩) same
    · simp [same] at not4
    · simp [same] at not6

/-! ## One step -/

/-- A method is chosen by its number, so the first one of that number that was offered is used. -/
theorem Chooses.unique {ai ai' : AuthInfo} (chosen : c.Chooses ai) (chosen' : c.Chooses ai') (same : ai.type = ai'.type) : ai = ai' := by
  have found := chosen.1
  rw [same, chosen'.1] at found
  exact (Option.some_inj.mp found).symm

/-- What the server says after its choice of a method is about that method. -/
theorem Chooses.answers {ai : AuthInfo} (chosen : c.Chooses ai) {rest : Bytes} (heard : c.Answers ([5, ai.type] ++ rest)) :
    ∃ reply, IsReply reply ∧ rest = ai.answer ++ reply := by
  obtain ⟨ai', reply, chosen', whole, same⟩ := heard
  rw [List.append_assoc] at same
  obtain ⟨types, rest_⟩ := List.append_inj same rfl
  have equal := chosen.unique chosen' (by simpa using types)
  rw [equal]
  exact ⟨reply, whole, rest_⟩

/-- Behind the greeting and the password the request is sent. -/
theorem progress_request {ai : AuthInfo} (chosen : c.Chooses ai) (sent : c.sent = c.hello ++ ai.message)
    (got : c.got = [5, ai.type] ++ ai.answer) : Progress (c.send c.request .sendingRequest) := by
  refine .sendingRequest ai chosen rfl c.request_ne_nil ?_ got
  simp [send, speech, sent, hello, request]

/-- After the choice the client says its password or its request. -/
theorem Named.progress {reserved : Bool} {r : Except SocksEnded SocksClient} (named : Named c reserved r) (sent : c.sent = c.hello)
    (got : c.got = c.buffer) (done : r = .ok c') : Progress c' := by
  cases named with
  | refused => cases done
  | chosen ai fits heard =>
    obtain ⟨-, rfl⟩ := reserveBuffer_eq_ok.mp done
    rw [heard] at got
    cases ai with
    | none =>
      apply progress_request fits
      · simpa [AuthInfo.message] using sent
      · simpa [AuthInfo.answer] using got
    | password user pass =>
      refine .sendingPassword (.password user pass) fits (by simp) rfl ?_ ?_ got
      · simp [goOn, send, passwordPacket]
      · simp [goOn, send, sent, AuthInfo.message, hello]

/-- If the client gives up here, no continuation of what it has heard is an answer. -/
theorem Named.refuses {reserved : Bool} {r : Except SocksEnded SocksClient} (named : Named c reserved r) (enough : reserved = true)
    (got : c.got = c.buffer) (full : c.buffer.length = 2) (failed : r = .error .error) (more : Bytes) : ¬ c.Answers (c.got ++ more) := by
  cases named with
  | chosen ai fits heard => simp [enough, reserveBuffer] at failed
  | refused none_ =>
    rintro ⟨ai, reply, chosen, -, same⟩
    rw [got, List.append_assoc] at same
    exact none_ ai chosen (List.append_inj_left same full)

/-- After the password is accepted the client says its request. -/
theorem Checked.progress {ai : AuthInfo} {reserved : Bool} {r : Except SocksEnded SocksClient} (checked : Checked c reserved r)
    (chosen : c.Chooses ai) (named : ai ≠ .none) (sent : c.sent = c.hello ++ ai.message) (got : c.got = [5, ai.type] ++ c.buffer)
    (done : r = .ok c') : Progress c' := by
  cases checked with
  | refused => cases done
  | passed heard =>
    obtain ⟨-, rfl⟩ := reserveBuffer_eq_ok.mp done
    apply progress_request chosen sent
    cases ai with
    | none => exact absurd rfl named
    | password user pass => simpa [heard, AuthInfo.answer] using got

/-- A password that is not accepted ends every conversation. -/
theorem Checked.refuses {ai : AuthInfo} {reserved : Bool} {r : Except SocksEnded SocksClient} (checked : Checked c reserved r)
    (enough : reserved = true) (chosen : c.Chooses ai) (named : ai ≠ .none) (got : c.got = [5, ai.type] ++ c.buffer)
    (full : c.buffer.length = 2) (failed : r = .error .error) (more : Bytes) : ¬ c.Answers (c.got ++ more) := by
  cases checked with
  | passed heard => simp [enough, reserveBuffer] at failed
  | refused other =>
    intro heard
    rw [got, List.append_assoc] at heard
    obtain ⟨reply, -, same⟩ := chosen.answers heard
    cases ai with
    | none => exact named rfl
    | password user pass => exact other (List.append_inj_left same full)

/-- The rest of the reply is received. -/
theorem Headed.progress {ai : AuthInfo} {r : Except SocksEnded SocksClient} (headed : Headed c r) (chosen : c.Chooses ai)
    (idle : c.sending = []) (sent : c.sent = c.speech ai) (got : c.got = [5, ai.type] ++ ai.answer ++ c.buffer) (done : r = .ok c') :
    Progress c' := by
  cases headed with
  | refused => cases done
  | succeeded rsv atyp len heard bound =>
    cases done
    refine .receivedReplyHeader ai chosen rsv atyp rfl idle bound ?_ sent ?_
    · rcases bound with ⟨-, rfl⟩ | ⟨-, rfl⟩ <;> simp [startReceive]
    · simpa [startReceive, heard] using got

/-- A reply of another kind is no answer. -/
theorem Headed.refuses {ai : AuthInfo} {r : Except SocksEnded SocksClient} (headed : Headed c r) (chosen : c.Chooses ai)
    (got : c.got = [5, ai.type] ++ ai.answer ++ c.buffer) (full : c.buffer.length = 4) (failed : r = .error .error) (more : Bytes) :
    ¬ c.Answers (c.got ++ more) := by
  cases headed with
  | succeeded => cases failed
  | refused other =>
    intro heard
    rw [got, List.append_assoc, List.append_assoc] at heard
    obtain ⟨reply, ⟨rsv, atyp, bound, rfl, ends⟩, same⟩ := chosen.answers heard
    exact other rsv atyp _ ends (List.append_inj_left (List.append_cancel_left same) full)

/-- The client comes through a step, or gives up for a reason; `heard` is what it has been told. -/
structure Kept (c : SocksClient) (heard : Bytes) (reserved : Bool) (r : Except SocksEnded SocksClient) : Prop where
  next : ∀ c', r = .ok c' → c'.Progress
  safe : r ≠ .error .asserted
  refuses : reserved = true → r = .error .error → ∀ more, ¬ c.Answers (heard ++ more)

/-- No assertion is reached. -/
theorem Named.safe {reserved : Bool} {r : Except SocksEnded SocksClient} (named : Named c reserved r) : r ≠ .error .asserted := by
  cases named with
  | chosen => exact reserveBuffer_ne_asserted _ _
  | refused => simp

theorem Checked.safe {reserved : Bool} {r : Except SocksEnded SocksClient} (checked : Checked c reserved r) : r ≠ .error .asserted := by
  cases checked with
  | passed => exact reserveBuffer_ne_asserted _ _
  | refused => simp

theorem Headed.safe {r : Except SocksEnded SocksClient} (headed : Headed c r) : r ≠ .error .asserted := by
  cases headed <;> simp

/-- The client with some more of a message. -/
def heard (c : SocksClient) (data : Bytes) : SocksClient := { c with buffer := c.buffer ++ data, got := c.got ++ data }

/-- A message of which a part is still missing. -/
theorem Progress.heard {data : Bytes} (progress : c.Progress) (receives : c.state.receives = true)
    (short : (c.heard data).buffer.length < c.recvTotal) : (c.heard data).Progress := by
  cases progress with
  | connecting at_ | sendingHello at_ | up _ _ _ _ at_ => simp [at_, SocksState.receives] at receives
  | sendingPassword _ _ _ at_ | sendingRequest _ _ at_ => simp [at_, SocksState.receives] at receives
  | sentHello at_ idle total _ sent got =>
    refine .sentHello at_ idle total (total ▸ short) sent ?_
    simp [SocksClient.heard, got]
  | sentPassword ai chosen named at_ idle total _ sent got =>
    refine .sentPassword ai chosen named at_ idle total (total ▸ short) sent ?_
    simp [SocksClient.heard, got]
  | sentRequest ai chosen at_ idle total _ sent got =>
    refine .sentRequest ai chosen at_ idle total (total ▸ short) sent ?_
    simp [SocksClient.heard, got]
  | receivedReplyHeader ai chosen rsv atyp at_ idle bound _ sent got =>
    refine .receivedReplyHeader ai chosen rsv atyp at_ idle bound short sent ?_
    simp [SocksClient.heard, got]

/-- Bytes from the server, as many of them as the connection has. -/
theorem recvHandlerDone_kept {data : Bytes} (progress : c.Progress) (receives : c.state.receives = true)
    (len : data.length ≤ c.recvTotal - c.buffer.length) (reserved : Bool) :
    Kept c (c.got ++ data) reserved (c.recvHandlerDone data reserved) := by
  have fits : ¬ c.recvTotal - c.buffer.length < data.length := Nat.not_lt.mpr len
  rw [recvHandlerDone, if_neg fits]
  change Kept c (c.heard data).got reserved
    (if (c.heard data).buffer.length < c.recvTotal then .ok (c.heard data) else (c.heard data).received reserved)
  split
  · rename_i short
    refine ⟨fun c' done => ?_, by simp, by simp⟩
    cases done
    exact progress.heard receives short
  rename_i full
  have total : (c.heard data).buffer.length = c.buffer.length + data.length := List.length_append
  cases progress with
  | connecting at_ | sendingHello at_ | up _ _ _ _ at_ => simp [at_, SocksState.receives] at receives
  | sendingPassword _ _ _ at_ | sendingRequest _ _ at_ => simp [at_, SocksState.receives] at receives
  | sentHello at_ idle two short sent got =>
    have whole : (c.heard data).buffer.length = 2 := by omega
    have named := received_sentHello (c := c.heard data) at_ whole reserved
    have got' : (c.heard data).got = (c.heard data).buffer := by simp [SocksClient.heard, got]
    exact ⟨fun _ => named.progress sent got', named.safe, fun enough => named.refuses enough got' whole⟩
  | sentPassword ai chosen isPassword at_ idle two short sent got =>
    have whole : (c.heard data).buffer.length = 2 := by omega
    have checked := received_sentPassword (c := c.heard data) at_ whole reserved
    have got' : (c.heard data).got = [5, ai.type] ++ (c.heard data).buffer := by simp [SocksClient.heard, got]
    exact ⟨fun _ => checked.progress chosen isPassword sent got', checked.safe,
      fun enough => checked.refuses enough chosen isPassword got' whole⟩
  | sentRequest ai chosen at_ idle four short sent got =>
    have whole : (c.heard data).buffer.length = 4 := by omega
    have headed := received_sentRequest (c := c.heard data) at_ whole reserved
    have got' : (c.heard data).got = [5, ai.type] ++ ai.answer ++ (c.heard data).buffer := by simp [SocksClient.heard, got]
    exact ⟨fun _ => headed.progress chosen idle sent got', headed.safe, fun _ => headed.refuses chosen got' whole⟩
  | receivedReplyHeader ai chosen rsv atyp at_ idle bound short sent got =>
    have at' : (c.heard data).state = .receivedReplyHeader := at_
    rw [received, at']
    refine ⟨fun c' done => ?_, by simp, by simp⟩
    cases done
    refine .up ai chosen ([5, 0, rsv, atyp] ++ (c.buffer ++ data)) ⟨rsv, atyp, _, rfl, ?_⟩ rfl idle sent ?_
    · have whole : (c.buffer ++ data).length = c.recvTotal := by
        rw [List.length_append]
        omega
      rw [whole]
      exact bound
    · simp [SocksClient.heard, got]

/-- The client with a part of its packet sent. -/
def sentPart (c : SocksClient) (len : Nat) : SocksClient := { c with sent := c.sent ++ c.sending.take len, sending := c.sending.drop len }

/-- What has been sent and what is being sent add up. -/
theorem sentPart_flow (c : SocksClient) (len : Nat) : (c.sentPart len).sent ++ (c.sentPart len).sending = c.sent ++ c.sending := by
  simp [sentPart]

/-- The connection has taken a part of a message, or the rest. -/
theorem outputHandlerDone_kept {len : Nat} (progress : c.Progress) (pos : 0 < len) (le : len ≤ c.sending.length) (reserved : Bool) :
    Kept c c.got false (c.outputHandlerDone len reserved) := by
  have flow := c.sentPart_flow len
  have fits : ¬ (len = 0 ∨ c.sending.length < len) := by omega
  have busy : c.sending ≠ [] := by
    rintro none_
    rw [none_] at le
    exact Nat.not_lt_zero _ (Nat.lt_of_lt_of_le pos le)
  rw [outputHandlerDone, if_neg fits]
  change Kept c c.got false (if (c.sentPart len).sending ≠ [] then .ok (c.sentPart len) else (c.sentPart len).sendHandlerDone reserved)
  split
  · rename_i more
    refine ⟨fun c' done => ?_, by simp, by simp⟩
    cases done
    cases progress with
    | connecting _ idle | sentHello _ idle | sentPassword _ _ _ _ idle => exact absurd idle busy
    | sentRequest _ _ _ idle | receivedReplyHeader _ _ _ _ _ idle | up _ _ _ _ _ idle => exact absurd idle busy
    | sendingHello at_ _ sent got => exact .sendingHello at_ more (flow.trans sent) got
    | sendingPassword ai chosen named at_ _ sent got => exact .sendingPassword ai chosen named at_ more (flow.trans sent) got
    | sendingRequest ai chosen at_ _ sent got => exact .sendingRequest ai chosen at_ more (flow.trans sent) got
  · rename_i done_
    rw [ne_eq, Decidable.not_not] at done_
    rw [done_, List.append_nil] at flow
    cases progress with
    | connecting _ idle | sentHello _ idle | sentPassword _ _ _ _ idle => exact absurd idle busy
    | sentRequest _ _ _ idle | receivedReplyHeader _ _ _ _ _ idle | up _ _ _ _ _ idle => exact absurd idle busy
    | sendingHello at_ _ sent got =>
      have at' : (c.sentPart len).state = .sendingHello := at_
      rw [sendHandlerDone, at']
      refine ⟨fun c' done => ?_, reserveBuffer_ne_asserted _ _, by simp⟩
      obtain ⟨-, rfl⟩ := reserveBuffer_eq_ok.mp done
      exact .sentHello rfl done_ rfl (by simp [startReceive]) (flow.trans sent) got
    | sendingPassword ai chosen named at_ _ sent got =>
      have at' : (c.sentPart len).state = .sendingPassword := at_
      rw [sendHandlerDone, at']
      refine ⟨fun c' done => ?_, reserveBuffer_ne_asserted _ _, by simp⟩
      obtain ⟨-, rfl⟩ := reserveBuffer_eq_ok.mp done
      exact .sentPassword ai chosen named rfl done_ rfl (by simp [startReceive]) (flow.trans sent)
        (got.trans (List.append_nil _).symm)
    | sendingRequest ai chosen at_ _ sent got =>
      have at' : (c.sentPart len).state = .sendingRequest := at_
      rw [sendHandlerDone, at']
      refine ⟨fun c' done => ?_, reserveBuffer_ne_asserted _ _, by simp⟩
      obtain ⟨-, rfl⟩ := reserveBuffer_eq_ok.mp done
      exact .sentRequest ai chosen rfl done_ rfl (by simp [startReceive]) (flow.trans sent)
        (got.trans (List.append_nil _).symm)

/-! ## Every run -/

/-- What has been received once this event is over. -/
def hearing (c : SocksClient) : SocksEvent → Bytes
  | .recvDone data _ => c.got ++ data
  | _ => c.got

/-- The event is the rest of a message, and there is memory for what follows. -/
def hears : SocksEvent → Bool
  | .recvDone _ reserved => reserved
  | _ => false

/-- Every event keeps what has been said and heard so far. -/
theorem fire_kept {e : SocksEvent} (progress : c.Progress) (on : socksEnabled c e = true) :
    Kept c (c.hearing e) (hears e) (socksFire c e) := by
  cases e with
  | connector isError connected reserved =>
    have at_ : c.state = .connecting := by simpa [socksEnabled] using on
    rw [socksFire, connectorHandler, if_neg (by simp [at_])]
    refine ⟨fun c' done => ?_, ?_, by simp [hears]⟩
    · split at done
      · cases done
      split at done
      · cases done
      split at done
      · cases done
      obtain ⟨-, rfl⟩ := reserveBuffer_eq_ok.mp done
      cases progress with
      | connecting _ _ sent got =>
        refine .sendingHello rfl c.hello_ne_nil ?_ got
        simp [send, sent, hello]
      | sendingHello no | sentHello no | sendingPassword _ _ _ no | sentPassword _ _ _ no => simp [at_] at no
      | sendingRequest _ _ no | sentRequest _ _ no | receivedReplyHeader _ _ _ _ no | up _ _ _ _ no => simp [at_] at no
    · split
      · simp
      split
      · simp
      split
      · simp
      exact reserveBuffer_ne_asserted _ _
  | connection recvClosed =>
    have off : c.state ≠ .connecting := by simpa [socksEnabled] using on
    rw [socksFire, connectionHandler, if_neg off]
    refine ⟨fun c' done => ?_, ?_, by simp [hears]⟩
    · split at done <;> cases done
    · split <;> simp
  | recvDone data reserved =>
    simp only [socksEnabled, Bool.and_eq_true, decide_eq_true_eq] at on
    exact recvHandlerDone_kept progress on.1.1 on.2 reserved
  | sendDone len reserved =>
    simp only [socksEnabled, Bool.and_eq_true, decide_eq_true_eq] at on
    exact outputHandlerDone_kept progress on.1 on.2 reserved
  | userSent data | userGot data =>
    simp only [socksEnabled, Bool.and_eq_true, decide_eq_true_eq] at on
    refine ⟨fun c' done => ?_, by simp [socksFire], by simp [hears]⟩
    cases done
    cases progress with
    | up ai chosen reply whole at_ idle sent got => exact .up ai chosen reply whole at_ idle sent got
    | connecting no | sendingHello no | sentHello no | sendingPassword _ _ _ no | sentPassword _ _ _ no => simp [on.1] at no
    | sendingRequest _ _ no | sentRequest _ _ no | receivedReplyHeader _ _ _ _ no => simp [on.1] at no

end SocksClient

/-- What the event puts on the connection, for the client and for its user. -/
def SocksEvent.sends (c : SocksClient) : SocksEvent → Bytes
  | .sendDone len _ => c.sending.take len
  | _ => []

/-- What the user of the connection sends with an event. -/
def SocksEvent.userSends : SocksEvent → Bytes
  | .userSent data => data
  | _ => []

/-- What the event takes from the connection. -/
def SocksEvent.takes : SocksEvent → Bytes
  | .recvDone data _ => data
  | _ => []

/-- What it receives. -/
def SocksEvent.userTakes : SocksEvent → Bytes
  | .userGot data => data
  | _ => []

namespace SocksClient
variable {c c' : SocksClient}

/-- What a step does to the two streams. -/
structure Flow (c : SocksClient) (sends takes userSends userTakes : Bytes) (c' : SocksClient) : Prop where
  authInfo : c'.authInfo = c.authInfo
  destAddr : c'.destAddr = c.destAddr
  sent : c'.sent = c.sent ++ sends
  got : c'.got = c.got ++ takes
  userSent : c'.userSent = c.userSent ++ userSends
  userGot : c'.userGot = c.userGot ++ userTakes

/-- What the client itself does with its buffers moves no byte of its user's. -/
theorem Flow.refl (c : SocksClient) (state : SocksState) (sending buffer : Bytes) (total : Nat) :
    Flow c [] [] [] [] { c with state, sending, buffer, recvTotal := total } := by
  constructor <;> simp

/-- A step that passes on what a first one has moved. -/
theorem Flow.trans {mid : SocksClient} {sends takes : Bytes} (flow : Flow c sends takes [] [] mid) (rest : Flow mid [] [] [] [] c') :
    Flow c sends takes [] [] c' := by
  constructor
  · exact rest.authInfo.trans flow.authInfo
  · exact rest.destAddr.trans flow.destAddr
  · rw [rest.sent, flow.sent, List.append_nil]
  · rw [rest.got, flow.got, List.append_nil]
  · rw [rest.userSent, flow.userSent, List.append_nil]
  · rw [rest.userGot, flow.userGot, List.append_nil]

theorem reserveBuffer_flow {rest : SocksClient} {reserved : Bool} (flow : Flow c [] [] [] [] rest)
    (done : reserveBuffer reserved rest = .ok c') : Flow c [] [] [] [] c' := by
  obtain ⟨-, rfl⟩ := reserveBuffer_eq_ok.mp done
  exact flow

/-- The parser of the answers sends nothing by itself. -/
theorem received_flow {reserved : Bool} (done : c.received reserved = .ok c') : Flow c [] [] [] [] c' := by
  unfold received authFinished at done
  repeat' split at done
  all_goals first
    | exact reserveBuffer_flow (.refl _ _ _ _ _) done
    | cases done
  all_goals exact .refl _ _ _ _ _

/-- The end of a message starts a receive. -/
theorem sendHandlerDone_flow {reserved : Bool} (done : c.sendHandlerDone reserved = .ok c') : Flow c [] [] [] [] c' := by
  unfold sendHandlerDone at done
  split at done
  · exact reserveBuffer_flow (.refl _ _ _ _ _) done
  · exact reserveBuffer_flow (.refl _ _ _ _ _) done
  · exact reserveBuffer_flow (.refl _ _ _ _ _) done
  · cases done

/-- Every event moves what it says it moves. -/
theorem fire_flow {e : SocksEvent} (done : socksFire c e = .ok c') : Flow c (e.sends c) e.takes e.userSends e.userTakes c' := by
  cases e with
  | connector isError connected reserved =>
    simp only [socksFire, connectorHandler] at done
    repeat' split at done
    all_goals first
      | exact reserveBuffer_flow (.refl _ _ _ _ _) done
      | cases done
  | connection recvClosed =>
    simp only [socksFire, connectionHandler] at done
    repeat' split at done
    all_goals cases done
  | recvDone data reserved =>
    have flow : Flow c [] data [] [] (c.heard data) := by constructor <;> simp [heard]
    simp only [socksFire, recvHandlerDone] at done
    split at done
    · cases done
    split at done
    · cases done
      exact flow
    · exact flow.trans (received_flow done)
  | sendDone len reserved =>
    have flow : Flow c (c.sending.take len) [] [] [] (c.sentPart len) := by constructor <;> simp [sentPart]
    simp only [socksFire, outputHandlerDone] at done
    split at done
    · cases done
    split at done
    · cases done
      exact flow
    · exact flow.trans (sendHandlerDone_flow done)
  | userSent data | userGot data =>
    cases done
    constructor <;> simp [SocksEvent.sends, SocksEvent.takes, SocksEvent.userSends, SocksEvent.userTakes]

/-- The client is still the one that was made, and it has no user before it is up. -/
structure Grown (start c : SocksClient) : Prop where
  authInfo : c.authInfo = start.authInfo
  destAddr : c.destAddr = start.destAddr
  quiet : c.state ≠ .up → c.userSent = [] ∧ c.userGot = []
  progress : c.Progress

/-- A user comes and goes only while the client is up, and then the client itself does not. -/
theorem Progress.apart {e : SocksEvent} (progress : c.Progress) (on : socksEnabled c e = true) :
    (c.state = .up → e.sends c = [] ∧ e.takes = []) ∧ (c.state ≠ .up → e.userSends = [] ∧ e.userTakes = []) := by
  constructor
  · intro up
    have idle : c.sending = [] := by
      cases progress with
      | up _ _ _ _ _ idle => exact idle
      | connecting no | sendingHello no | sentHello no | sendingPassword _ _ _ no | sentPassword _ _ _ no => simp [up] at no
      | sendingRequest _ _ no | sentRequest _ _ no | receivedReplyHeader _ _ _ _ no => simp [up] at no
    cases e with
    | recvDone => simp [socksEnabled, up, SocksState.receives] at on
    | sendDone => simp [SocksEvent.sends, SocksEvent.takes, idle]
    | _ => simp [SocksEvent.sends, SocksEvent.takes]
  · intro off
    cases e with
    | userSent | userGot => simp [socksEnabled, off] at on
    | _ => simp [SocksEvent.userSends, SocksEvent.userTakes]

/-- So what has been said and heard grows from event to event. -/
theorem Grown.fire {start : SocksClient} {e : SocksEvent} (grown : Grown start c) (on : socksEnabled c e = true)
    (done : socksFire c e = .ok c') : Grown start c' := by
  have kept := fire_kept grown.progress on
  have flow := fire_flow done
  refine ⟨flow.authInfo.trans grown.authInfo, flow.destAddr.trans grown.destAddr, fun off' => ?_, kept.next c' done⟩
  by_cases up : c.state = .up
  · -- a client that is up stays up
    cases e with
    | userSent | userGot => cases done; exact absurd up off'
    | connection =>
      simp only [socksFire, connectionHandler] at done
      repeat' split at done
      all_goals cases done
    | connector | recvDone => simp [socksEnabled, up, SocksState.receives] at on
    | sendDone len =>
      have pos : 0 < (c.sending.take len).length := by
        simp only [socksEnabled, Bool.and_eq_true, decide_eq_true_eq] at on
        rw [List.length_take]
        omega
      have none_ : c.sending.take len = [] := ((grown.progress.apart on).1 up).1
      simp [none_] at pos
  · obtain ⟨noneSent, noneGot⟩ := (grown.progress.apart on).2 up
    obtain ⟨before, before'⟩ := grown.quiet up
    rw [flow.userSent, flow.userGot, before, before', noneSent, noneGot]
    exact ⟨rfl, rfl⟩

theorem grown_init (authInfo : List AuthInfo) (destAddr : BAddr) : Grown (socksInit authInfo destAddr) (socksInit authInfo destAddr) :=
  ⟨rfl, rfl, fun _ => ⟨rfl, rfl⟩, .connecting rfl rfl rfl rfl⟩

/-- In every state reached the client's messages are those of the start. -/
theorem grown_of_reach {start : SocksClient} (init : Grown start start) (reach : socksMachine.Reach (fun _ _ => True) start c) :
    Grown start c :=
  reach.invariant (Grown start) init fun _ _ _ grown on _ done => grown.fire on done

/-- Only the two settings decide what the client says and takes. -/
theorem Grown.answers {start : SocksClient} (grown : Grown start c) : c.Answers = start.Answers := by
  funext heard
  simp only [Answers, Chooses, grown.authInfo]

/-- What it has to say is fixed. -/
theorem Grown.speech {start : SocksClient} (grown : Grown start c) : c.speech = start.speech := by
  funext ai
  simp only [SocksClient.speech, hello, request, grown.authInfo, grown.destAddr]

end SocksClient

variable {authInfo : List AuthInfo} {destAddr : BAddr} {c : SocksClient}

/-- A client that is up has said and heard a whole conversation and nothing of its user's, and one
that is not has said the beginning of one, the request only to a server that has let it in. It does
not fail an assertion, and does not give up, unless its connection fails or memory is short, as long
as a server that knows its answers goes on. -/
theorem socks_dialogue (reach : socksMachine.Reach (fun _ _ => True) (socksInit authInfo destAddr) c) :
    (c.state = .up → ∃ ai reply, c.Chooses ai ∧ IsReply reply ∧ c.sent = (socksInit authInfo destAddr).speech ai ∧
      c.got = [5, ai.type] ++ ai.answer ++ reply) ∧
    (c.state ≠ .up → c.userSent = [] ∧ c.userGot = [] ∧ (c.sent <+: c.hello ∨ ∃ ai, c.Chooses ai ∧ [5, ai.type] <+: c.got ∧
      (c.sent <+: c.hello ++ ai.message ∨ [5, ai.type] ++ ai.answer <+: c.got ∧ c.sent <+: (socksInit authInfo destAddr).speech ai))) ∧
    ∀ e, socksEnabled c e = true → socksFire c e ≠ .error .asserted ∧
      ∀ data, e = .recvDone data true → socksFire c e = .error .error →
        ∀ more, ¬ (socksInit authInfo destAddr).Answers (c.got ++ data ++ more) := by
  have grown := SocksClient.grown_of_reach (SocksClient.grown_init authInfo destAddr) reach
  rw [← grown.speech, ← grown.answers]
  refine ⟨fun at_ => ?_, fun off => ?_, fun e on => ?_⟩
  · cases grown.progress with
    | up ai chosen reply whole _ _ sent got => exact ⟨ai, reply, chosen, whole, sent, got⟩
    | connecting no | sendingHello no | sentHello no | sendingPassword _ _ _ no | sentPassword _ _ _ no => simp [at_] at no
    | sendingRequest _ _ no | sentRequest _ _ no | receivedReplyHeader _ _ _ _ no => simp [at_] at no
  · obtain ⟨noneSent, noneGot⟩ := grown.quiet off
    refine ⟨noneSent, noneGot, ?_⟩
    cases grown.progress with
    | connecting _ _ sent => exact .inl (by simp [sent])
    | sendingHello _ _ sent => exact .inl ⟨_, sent⟩
    | sentHello _ _ _ _ sent => exact .inl (by simp [sent])
    | sendingPassword ai chosen _ _ _ sent got => exact .inr ⟨ai, chosen, by simp [got], .inl ⟨_, sent⟩⟩
    | sentPassword ai chosen _ _ _ _ _ sent got => exact .inr ⟨ai, chosen, by simp [got], .inl (by simp [sent])⟩
    | sendingRequest ai chosen _ _ sent got => exact .inr ⟨ai, chosen, by simp [got], .inr ⟨by simp [got], ⟨_, sent⟩⟩⟩
    | sentRequest ai chosen _ _ _ _ sent got => exact .inr ⟨ai, chosen, by simp [got], .inr ⟨by simp [got], by simp [sent]⟩⟩
    | receivedReplyHeader ai chosen _ _ _ _ _ _ sent got =>
      exact .inr ⟨ai, chosen, by simp [got], .inr ⟨by simp [got], by simp [sent]⟩⟩
    | up _ _ _ _ at_ => exact absurd at_ off
  · have kept := SocksClient.fire_kept grown.progress on
    refine ⟨kept.safe, ?_⟩
    rintro data rfl failed
    exact kept.refuses rfl failed

/-- The client of 10.0.0.2:80, to a server without passwords that cuts its answers. -/
def socksExample : List SocksEvent :=
  [.connector false true true, .sendDone 2 true, .sendDone 1 true, .recvDone [5] true, .recvDone [0] true, .sendDone 10 true,
    .recvDone [5, 0, 0, 1] true, .recvDone [0, 0, 0, 0, 0, 0] true]

/-- The shortest conversation: no authentication, and an IPv4 address. -/
theorem socks_dialogue_example : ∃ c, socksMachine.Reach (fun _ _ => True) (socksInit [.none] (.ipv4 ⟨0x0a000002, 80⟩)) c ∧
    c.state = .up ∧ c.sent = [5, 1, 0, 5, 1, 0, 1, 10, 0, 0, 2, 0, 80] := by
  have ran : socksMachine.leadsTo (socksInit [.none] (.ipv4 ⟨0x0a000002, 80⟩)) socksExample
      (fun c => c.state == .up && c.authInfo == [.none]) = true := by decide
  obtain ⟨c, ran, at_⟩ := Machine.exists_of_leadsTo ran
  simp only [Bool.and_eq_true, beq_iff_eq] at at_
  have reach := Machine.Reach.of_run .refl (fun _ _ _ => trivial) ran
  obtain ⟨ai, reply, chosen, -, sent, -⟩ := (socks_dialogue reach).1 at_.1
  have only : ai = .none := by
    have found := List.mem_of_find?_eq_some chosen.1
    simpa [at_.2] using found
  subst only
  exact ⟨c, reach, at_.1, sent⟩

end Shadowsocks.Tun2socks
