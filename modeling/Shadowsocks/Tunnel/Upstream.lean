import Shadowsocks.Encrypt.Openssl
import Shadowsocks.Tunnel.Conn

/-!
# The upstream direction of ss-tunnel

The header goes first, from a buffer of its own, and the payload follows from
`remote->buf`. The test behind the first `send` compares its result with a length that
`bfree` has just cleared, so whatever that `send` returns, the connection goes on. If
it takes the whole header, nothing is lost afterwards.
-/

namespace Shadowsocks.Tunnel
set_option autoImplicit false
open Lib

variable {P : Platform} {C : Config P} {iv : Bytes} {conn conn' : Conn P}

/-- The encrypted header, with what the scratch buffer of `ss_encrypt` holds. -/
def headerCipher (C : Config P) (iv : Bytes) (tmp : Buffer) : Except Stop Bytes := do
  let abuf ← orCrash (buildHeader C)
  let abuf ← authHeader C.E C.auth (newContext C.E true iv) abuf
  let (cipher, _) ← encryptBuf C.E abuf (newContext C.E true iv) tmp
  pure cipher.bytes

/-- The `send` of the header is not cut. -/
def headerWhole (conn : Conn P) : Event → Prop
  | .remoteSend _ _ send => conn.connected = false → send = .full
  | _ => True

/-- The same where `accept_cb` calls `remote_send_cb` itself. -/
def acceptsWhole : ConnectResult → Prop
  | .immediate _ send => send = .full
  | _ => True

/-- The state of the upstream direction between callbacks. -/
structure UpInv (C : Config P) (iv : Bytes) (conn : Conn P) : Prop where
  ok : conn.up.Ok
  waiting : conn.connected = false →
    conn.up.produced = [] ∧ conn.up.filling = false ∧ conn.eCtx = newContext C.E true iv
  header : conn.connected = true → ∃ tmp h payload, headerCipher C iv tmp = .ok h ∧ conn.up.produced = h ++ payload ∧
    h <+: conn.up.accepted

/-- Once the remote is connected, the rest of the invariant is about the pipe. -/
theorem UpInv.go_on (inv : UpInv C iv conn) (on : conn.connected = true) (more : Bytes) (on' : conn'.connected = true)
    (produced : conn'.up.produced = conn.up.produced ++ more) (accepted : conn.up.accepted <+: conn'.up.accepted)
    (ok : conn'.up.Ok) : UpInv C iv conn' where
  ok := ok
  waiting off := by rw [on'] at off; cases off
  header _ := by
    obtain ⟨tmp, h, payload, eq, split, first⟩ := inv.header on
    refine ⟨tmp, h, payload ++ more, eq, ?_, first.trans accepted⟩
    rw [produced, split, List.append_assoc]

theorem sendHeader_up {tmp : Buffer} (inv : UpInv C iv conn) (off : conn.connected = false)
    (h : sendHeader C conn tmp .full = .ok conn') : UpInv C iv conn' := by
  obtain ⟨none_, -, ctx⟩ := inv.waiting off
  have nothing : conn.up.accepted = [] := by
    have first := inv.ok.intact.1
    rw [none_] at first
    exact List.prefix_nil.mp first
  obtain ⟨abuf, built, h⟩ := bind_eq_ok.mp h
  obtain ⟨auth, signed, h⟩ := bind_eq_ok.mp h
  obtain ⟨⟨cipher, eCtx⟩, encrypted, h⟩ := bind_eq_ok.mp h
  obtain ⟨data, read, h⟩ := bind_eq_ok.mp h
  have len : data.length = cipher.len := Buffer.read_length (orCrash_eq_ok.mp read)
  rw [orCrash_eq_ok, Buffer.read, load] at read
  split at read
  · cases read
    have all : (window cipher.array 0 cipher.len).take cipher.len = window cipher.array 0 cipher.len := take_window _ _ _
    cases h
    refine ⟨?_, ?_, ?_⟩
    · apply Pipe.Ok.idle
      · simp only [SendResult.on, all, none_, nothing]
      · rfl
    · intro no
      cases no
    · intro _
      refine ⟨tmp, window cipher.array 0 cipher.len, [], ?_, ?_, ?_⟩
      · dsimp only at signed encrypted
        rw [ctx] at signed encrypted
        simp only [headerCipher, built, ok_bind, signed, encrypted, pure_eq_ok, Buffer.bytes]
      · simp only [none_, List.nil_append, List.append_nil]
      · simp only [SendResult.on, all, nothing, List.nil_append]
        exact List.prefix_rfl
  · cases read

theorem remoteSendCb_up {peer : Bool} {tmp : Buffer} {send : SendResult} (inv : UpInv C iv conn)
    (draining : conn.connected = true → conn.up.draining = true) (whole : conn.connected = false → send = .full)
    (h : remoteSendCb C conn peer tmp send = .ok conn') : UpInv C iv conn' := by
  unfold remoteSendCb at h
  split at h
  · rename_i on
    obtain ⟨up, drained, h⟩ := bind_eq_ok.mp h
    obtain ⟨same, more⟩ := Pipe.drain_grows drained
    cases h
    exact inv.go_on on [] on (same.trans (List.append_nil _).symm) more (Pipe.drain_ok inv.ok (draining on) drained)
  · rename_i off
    rw [Bool.not_eq_true] at off
    split at h
    · rw [whole off] at h
      exact sendHeader_up inv off h
    · cases h

theorem fire_up {e : Event} (inv : UpInv C iv conn) (on : enabled conn e = true) (may : headerWhole conn e)
    (h : fire C conn e = .ok conn') : UpInv C iv conn' := by
  cases e with
  | serverRecv e =>
    have filling : conn.up.filling = true := on
    have connected : conn.connected = true := by
      by_contra off
      rw [Bool.not_eq_true] at off
      have unread := (inv.waiting off).2.1
      rw [filling] at unread
      cases unread
    simp only [fire, serverRecvCb] at h
    split at h
    · cases h
    · cases h
    · cases h
      exact inv
    · obtain ⟨up, received, h⟩ := bind_eq_ok.mp h
      obtain ⟨rbuf, -, received⟩ := bind_eq_ok.mp received
      cases received
      obtain ⟨⟨buf, counter⟩, -, h⟩ := bind_eq_ok.mp h
      obtain ⟨⟨cipher, eCtx⟩, -, h⟩ := bind_eq_ok.mp h
      obtain ⟨up', pushed, h⟩ := bind_eq_ok.mp h
      obtain ⟨same, more⟩ := Pipe.push_grows pushed
      cases h
      have fresh := Pipe.Fresh.produce (inv.ok.delivered filling) cipher
      exact inv.go_on connected cipher.bytes connected same more (Pipe.push_ok fresh (inv.ok.not_draining filling) pushed)
  | serverSend send =>
    obtain ⟨down, -, h⟩ := bind_eq_ok.mp h
    cases h
    exact ⟨inv.ok, inv.waiting, inv.header⟩
  | remoteRecv e =>
    simp only [fire, remoteRecvCb] at h
    split at h
    · cases h
    · cases h
    · cases h
      exact inv
    · obtain ⟨⟨down, dCtx⟩, -, h⟩ := bind_eq_ok.mp h
      cases h
      exact ⟨inv.ok, inv.waiting, inv.header⟩
  | remoteSend peer tmp send => exact remoteSendCb_up inv (fun _ => on) may h
  | remoteTimeout => cases h

theorem newConn_up (C : Config P) (iv : Bytes) : UpInv C iv (newConn C iv) where
  ok := Pipe.Ok.idle rfl rfl
  waiting _ := ⟨rfl, rfl, rfl⟩
  header on := by cases on

theorem acceptCb_up {connect : ConnectResult} {tmp : Buffer} (whole : acceptsWhole connect)
    (h : acceptCb C iv connect tmp = .ok conn) : UpInv C iv conn := by
  have inv := newConn_up C iv
  unfold acceptCb at h
  dsimp only at h
  split at h
  · cases h
  · exact remoteSendCb_up inv (fun on => by cases on) (fun _ => whole) h
  · cases h
    refine ⟨⟨?_, rfl⟩, inv.waiting, inv.header⟩
    exact (window_nil (balloc P.junk bufSize).array 0).symm

/-- Along every run in which the `send` of the header takes it whole, the remote has
accepted a prefix of what was produced for it, the rest is pending, and the header came
first and was accepted in full before any payload. -/
theorem header_first (C : Config P) (iv : Bytes) (connect : ConnectResult) (tmp : Buffer) (start conn : Conn P)
    (whole : acceptsWhole connect) (accepted : acceptCb C iv connect tmp = .ok start)
    (reach : (machine C).Reach headerWhole start conn) :
    conn.up.Intact ∧ (conn.connected = false → conn.up.produced = []) ∧
      (conn.connected = true → ∃ tmp h payload, headerCipher C iv tmp = .ok h ∧
        conn.up.produced = h ++ payload ∧ h <+: conn.up.accepted) := by
  have inv := reach.invariant (UpInv C iv) (acceptCb_up whole accepted)
    fun _ _ _ inv on may fired => fire_up inv on may fired
  exact ⟨inv.ok.intact, fun off => (inv.waiting off).1, inv.header⟩

/-- ss-tunnel to 10.0.0.1:80 with the method `table`. -/
def tableConfig : Config rc4Platform where
  E := unsortedTable
  text := { ntop4 := id, ntop6 := id, corkIpInit := fun _ => some (.v4 [10, 0, 0, 1]),
            pton4 := fun _ => some [10, 0, 0, 1], pton6 := fun _ => none }
  auth := false
  host := [49, 48, 46, 48, 46, 48, 46, 49]
  port := 80

/-- Two bytes from the client. -/
def twoBytes (send : SendResult) : Event := .serverRecv { recv := .data { bytes := [65, 66] }, send }

/-- The header is taken whole, and one of two bytes behind it. -/
theorem header_first_short : ∃ start conn, acceptCb tableConfig [] .inProgress {} = .ok start ∧
    (machine tableConfig).run start [.remoteSend true {} .full, twoBytes (.short 1)] = some (.ok conn) ∧
    conn.up.accepted = [1, 10, 0, 0, 1, 0, 80, 65] ∧ conn.up.produced = [1, 10, 0, 0, 1, 0, 80, 65, 66] ∧
    conn.up.Intact := by
  have ran : (machine tableConfig).leadsTo { newConn tableConfig [] with
      up := { (newConn tableConfig []).up with draining := true }, sendTimer := true }
      [.remoteSend true {} .full, twoBytes (.short 1)]
      (fun conn => conn.up.accepted = [1, 10, 0, 0, 1, 0, 80, 65] ∧
        conn.up.produced = [1, 10, 0, 0, 1, 0, 80, 65, 66]) = true := by decide +kernel
  obtain ⟨conn, ran, sent⟩ := Machine.exists_of_leadsTo ran
  obtain ⟨eight, nine⟩ := of_decide_eq_true sent
  refine ⟨_, conn, rfl, ran, eight, nine, (header_first tableConfig [] .inProgress {} _ conn trivial rfl ?_).1⟩
  refine .of_run .refl ?_ ran
  intro e he s
  rcases List.mem_cons.mp he with rfl | he
  · exact fun _ => rfl
  · rw [List.mem_singleton.mp he]
    trivial

/-- Of the header one byte is taken, and then the payload as if it were the rest. -/
theorem header_cut : ∃ start conn, acceptCb tableConfig [] .inProgress {} = .ok start ∧
    (machine tableConfig).Reach (fun _ _ => True) start conn ∧
    conn.up.produced = [1, 10, 0, 0, 1, 0, 80, 65, 66] ∧ conn.up.accepted = [1, 65, 66] ∧ ¬ conn.up.Intact := by
  have ran : (machine tableConfig).leadsTo { newConn tableConfig [] with
      up := { (newConn tableConfig []).up with draining := true }, sendTimer := true }
      [.remoteSend true {} (.short 1), twoBytes .full]
      (fun conn => conn.up.produced = [1, 10, 0, 0, 1, 0, 80, 65, 66] ∧ conn.up.accepted = [1, 65, 66] ∧
        ¬ conn.up.Intact) = true := by decide +kernel
  obtain ⟨conn, ran, sent⟩ := Machine.exists_of_leadsTo ran
  exact ⟨_, conn, rfl, .of_run .refl (fun _ _ _ => trivial) ran, of_decide_eq_true sent⟩

end Shadowsocks.Tunnel
