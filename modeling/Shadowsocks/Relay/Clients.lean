import Shadowsocks.Local.Reception
import Shadowsocks.Tunnel.Conn

/-!
# What the clients receive

ss-local (through the proxy) and ss-tunnel receive the server's stream in the same way,
and so they depend in the same way on how it is cut into segments.

The condition of `client_reception` is the length of the first `recv`: it must have the whole
IV. The two callbacks test it in no other way, and after it any cutting will do.
-/

namespace Shadowsocks
set_option autoImplicit false
open Lib

namespace Tunnel
variable {P : Platform} {C : Config P} {conn conn' : Conn P}

/-- What a client receives with. -/
def Conn.reception (conn : Conn P) : Reception P := { down := conn.down, dCtx := conn.dCtx }

/-- No data from the remote arrives with the event. -/
def beforeData (_ : Conn P) : Event → Prop
  | .remoteRecv e => ∀ segment, e.recv ≠ .data segment
  | _ => True

/-- The events of a reception as callbacks. -/
def ofDown : DownEvent → Event
  | .recv segment tmp ivCache send => .remoteRecv { recv := .data segment, tmp, ivCache, send }
  | .send send => .serverSend send

theorem Ready.filling (ready : conn.reception.Ready C.E) {filling : Bool} (dCtx : conn'.dCtx = conn.dCtx)
    (down : conn'.down = { conn.down with filling }) : conn'.reception.Ready C.E := by
  have room : conn'.reception.down = { conn.down with filling } := down
  refine ⟨dCtx.trans ready.ctx, ?_, ?_, ?_, ?_, ?_⟩ <;> rw [room]
  · exact ready.produced
  · exact ready.accepted
  · exact ready.idle
  · exact ready.room
  · exact ready.alloc

theorem remoteSendCb_ready {peer : Bool} {tmp : Buffer} {send : SendResult} (ready : conn.reception.Ready C.E)
    (h : remoteSendCb C conn peer tmp send = .ok conn') : conn'.reception.Ready C.E := by
  unfold remoteSendCb at h
  split at h
  · obtain ⟨up, -, h⟩ := bind_eq_ok.mp h
    cases h
    exact Ready.filling ready rfl rfl
  · split at h
    · obtain ⟨abuf, -, h⟩ := bind_eq_ok.mp h
      obtain ⟨auth, -, h⟩ := bind_eq_ok.mp h
      obtain ⟨⟨cipher, eCtx⟩, -, h⟩ := bind_eq_ok.mp h
      obtain ⟨data, -, h⟩ := bind_eq_ok.mp h
      cases h
      exact Ready.filling ready rfl rfl
    · cases h

theorem newConn_ready (C : Config P) (iv : Bytes) (method : C.E.method ≠ .table) :
    (newConn C iv).reception.Ready C.E := by
  have fresh : newContext C.E false [] = some (encCtxInit C.E false []) := if_neg method
  have size : (balloc P.junk bufSize).array.length = bufSize := length_balloc _ _
  refine ⟨fresh, rfl, rfl, rfl, Nat.le_of_eq size.symm, ?_⟩
  change (balloc P.junk bufSize).array.length < 2 ^ 63
  rw [size]
  decide

/-- A connection to which the server has not sent anything can receive. -/
theorem reception_ready {iv : Bytes} {connect : ConnectResult} {tmp : Buffer} {start : Conn P}
    (method : C.E.method ≠ .table) (accepted : acceptCb C iv connect tmp = .ok start)
    (reach : (machine C).Reach beforeData start conn) : conn.reception.Ready C.E := by
  refine reach.invariant (fun conn => conn.reception.Ready C.E) ?_ ?_
  · have ready := newConn_ready C iv method
    unfold acceptCb at accepted
    dsimp only at accepted
    split at accepted
    · cases accepted
    · exact remoteSendCb_ready ready accepted
    · cases accepted
      exact Ready.filling ready rfl rfl
  · intro conn e conn' ready on may fired
    cases e with
    | serverRecv e =>
      simp only [machine, fire, serverRecvCb] at fired
      split at fired
      · cases fired
      · cases fired
      · cases fired
        exact ready
      · obtain ⟨up, -, fired⟩ := bind_eq_ok.mp fired
        obtain ⟨⟨buf, counter⟩, -, fired⟩ := bind_eq_ok.mp fired
        obtain ⟨⟨cipher, eCtx⟩, -, fired⟩ := bind_eq_ok.mp fired
        obtain ⟨up', -, fired⟩ := bind_eq_ok.mp fired
        cases fired
        exact Ready.filling ready rfl rfl
    | serverSend send =>
      have draining : conn.reception.down.draining = true := on
      rw [ready.idle] at draining
      cases draining
    | remoteRecv e =>
      simp only [machine, fire, remoteRecvCb] at fired
      split at fired
      · cases fired
      · cases fired
      · cases fired
        exact ready
      · rename_i segment data
        exact absurd data (may segment)
    | remoteSend peer tmp send => exact remoteSendCb_ready ready fired
    | remoteTimeout => cases fired

theorem shows_reception (C : Config P) :
    (machine C).Shows (Reception.machine C.E) Conn.reception ofDown (fun _ => True) := by
  constructor
  · intro conn e _
    cases e <;> rfl
  · intro conn e _
    cases e with
    | recv segment tmp ivCache send =>
      change Reception.fire C.E conn.reception (.recv segment tmp ivCache send) =
        (remoteRecvCb C conn { recv := .data segment, tmp, ivCache, send }).map Conn.reception
      simp only [Reception.fire, Conn.reception, remoteRecvCb]
      cases relayDecrypted C.E conn.down conn.dCtx segment { recv := .data segment, tmp, ivCache, send } <;> rfl
    | send send =>
      change (conn.down.drain send >>= fun down => pure { conn.reception with down }) =
        (conn.down.drain send >>= fun down => pure { conn with down }).map Conn.reception
      cases conn.down.drain send <;> rfl
  · intro conn e conn' _ _
    trivial

end Tunnel

/-! ## Segmentation -/

variable {P : Platform} {E : Encryptor P} {iv plain : Bytes}

/-- What `run_iff` says of a reception holds of any machine that shows it. -/
theorem Reception.run_iff_of_shows {σ ε : Type} {M : Machine σ ε Stop} {view : σ → Reception P} {lift : DownEvent → ε}
    {good : σ → Prop} {s : σ} (shows : M.Shows (Reception.machine E) view lift good) (fine : good s)
    (lawful : P.evp.Lawful) (ivLen : iv.length = E.ivLen) (limit : InLimit E plain.length) {es : List DownEvent}
    (ready : (view s).Ready E) (works : ∀ e ∈ es, e.result ≠ .failed) (runs : M.run s (es.map lift) ≠ none)
    (cut : (arrivals es).flatten = ciphertext E iv plain) (fresh : ∀ e ∈ es.head?, e.IvFresh iv) :
    (∃ s', M.run s (es.map lift) = some (.ok s') ∧ (view s').down.produced = plain ∧ (view s').down.Intact) ↔
      ∀ first, (arrivals es).head? = some first → E.ivLen ≤ first.length := by
  have same := shows.run fine es
  rw [← Reception.run_iff lawful ivLen limit ready works (by rw [same]; simpa using runs) cut fresh, same]
  constructor
  · rintro ⟨s', ran, rest⟩
    exact ⟨view s', by rw [ran]; rfl, rest⟩
  · rintro ⟨r', ran, rest⟩
    cases result : M.run s (es.map lift) with
    | none =>
      rw [result] at ran
      cases ran
    | some outcome =>
      rw [result] at ran
      cases outcome with
      | error t => cases ran
      | ok s' =>
        cases ran
        exact ⟨s', rfl, rest⟩

/-- The stream of the server, cut anywhere, received by ss-local through the proxy or by
ss-tunnel, with any results of `send` but failures: all of it is decrypted and handed on
to the client exactly if the first segment is not shorter than the IV. -/
theorem client_reception (lawful : P.evp.Lawful) (method : E.method ≠ .table) (ivLen : iv.length = E.ivLen)
    (limit : InLimit E plain.length) (es : List DownEvent) (works : ∀ e ∈ es, e.result ≠ .failed)
    (cut : (arrivals es).flatten = ciphertext E iv plain) (fresh : ∀ e ∈ es.head?, e.IvFresh iv) :
    (∀ (C : Local.Config P) (drawn : Bytes) (conn : Local.Conn P), C.E = E →
      (Local.machine C).Reach Local.beforeData (Local.acceptCb C drawn) conn → conn.proxied →
      (Local.machine C).run conn (es.map Local.ofDown) ≠ none →
      ((∃ conn', (Local.machine C).run conn (es.map Local.ofDown) = some (.ok conn') ∧
          conn'.down.produced = plain ∧ conn'.down.Intact) ↔
        ∀ first, (arrivals es).head? = some first → E.ivLen ≤ first.length)) ∧
    (∀ (C : Tunnel.Config P) (drawn : Bytes) (connect : ConnectResult) (tmp : Buffer) (start conn : Tunnel.Conn P),
      C.E = E → Tunnel.acceptCb C drawn connect tmp = .ok start →
      (Tunnel.machine C).Reach Tunnel.beforeData start conn →
      (Tunnel.machine C).run conn (es.map Tunnel.ofDown) ≠ none →
      ((∃ conn', (Tunnel.machine C).run conn (es.map Tunnel.ofDown) = some (.ok conn') ∧
          conn'.down.produced = plain ∧ conn'.down.Intact) ↔
        ∀ first, (arrivals es).head? = some first → E.ivLen ≤ first.length)) := by
  constructor
  · rintro C drawn conn rfl reach proxied runs
    have ready := Local.reception_ready C drawn method reach
    exact Reception.run_iff_of_shows (Local.shows_reception C) proxied lawful ivLen limit ready works runs cut fresh
  · rintro C drawn connect tmp start conn rfl accepted reach runs
    have ready := Tunnel.reception_ready method accepted reach
    exact Reception.run_iff_of_shows (Tunnel.shows_reception C) trivial lawful ivLen limit ready works runs cut fresh

def Local.salsaConfig : Local.Config rc4Platform := { Local.rc4Config with E := salsa }

def Tunnel.salsaConfig : Tunnel.Config rc4Platform where
  E := salsa
  text := Local.rc4Config.text
  auth := false
  host := [49, 48, 46, 48, 46, 48, 46, 49]
  port := 80

/-- The answer 1, 2, 3 under an IV of eight bytes, in two segments. -/
def answerIn (first last : Segment) : List DownEvent :=
  [.recv first {} (cacheCreate Unit 1024) .full, .recv last {} (cacheCreate Unit 1024) .full]

/-- The IV and one byte, then two bytes. -/
def nineAndTwo : List DownEvent :=
  answerIn { bytes := [9, 8, 7, 6, 5, 4, 3, 2, 155] } { bytes := [87, 13] }

/-- Three bytes of the IV, then the rest. -/
def threeAndEight : List DownEvent :=
  answerIn { bytes := [9, 8, 7] } { bytes := [6, 5, 4, 3, 2, 155, 87, 13] }

/-- ss-local after a request, connected. -/
def connectedEvents : List Local.Event := Local.pipelinedRequest .inProgress ++ [.remoteSend true .full]

theorem client_reception_nine :
    (∃ conn conn', (Local.machine Local.salsaConfig).run (Local.acceptCb Local.salsaConfig [1, 1, 1, 1, 1, 1, 1, 1])
        connectedEvents = some (.ok conn) ∧
      (Local.machine Local.salsaConfig).run conn (nineAndTwo.map Local.ofDown) = some (.ok conn') ∧
      conn'.down.produced = [1, 2, 3] ∧ conn'.down.Intact) ∧
    (∃ start conn', Tunnel.acceptCb Tunnel.salsaConfig [1, 1, 1, 1, 1, 1, 1, 1] (.immediate true .full) {} = .ok start ∧
      (Tunnel.machine Tunnel.salsaConfig).run start (nineAndTwo.map Tunnel.ofDown) = some (.ok conn') ∧
      conn'.down.produced = [1, 2, 3] ∧ conn'.down.Intact) := by
  have works : ∀ e ∈ nineAndTwo, e.result ≠ .failed := by
    intro e mem
    simp only [nineAndTwo, answerIn, List.mem_cons, List.not_mem_nil, or_false] at mem
    obtain rfl | rfl := mem <;> simp [DownEvent.result]
  have cut : (arrivals nineAndTwo).flatten = ciphertext salsa [9, 8, 7, 6, 5, 4, 3, 2] [1, 2, 3] := by
    decide +kernel
  have fresh : ∀ e ∈ nineAndTwo.head?, e.IvFresh [9, 8, 7, 6, 5, 4, 3, 2] := by
    intro e mem
    cases mem
    simp [DownEvent.IvFresh, Cache.keys, cacheCreate]
  have long : ∀ first, (arrivals nineAndTwo).head? = some first → salsa.ivLen ≤ first.length := by
    intro first mem
    cases mem
    decide
  obtain ⟨onLocal, onTunnel⟩ := client_reception rc4_lawful (by decide) (by decide) (fun _ => by decide)
    nineAndTwo works cut fresh
  constructor
  · have up : (Local.machine Local.salsaConfig).leadsTo (Local.acceptCb Local.salsaConfig [1, 1, 1, 1, 1, 1, 1, 1])
        connectedEvents (fun conn => conn.phase.remote?.any (fun r => !r.direct) &&
          ((Local.machine Local.salsaConfig).run conn (nineAndTwo.map Local.ofDown)).isSome) = true := by
      decide +kernel
    obtain ⟨conn, ran, good⟩ := Machine.exists_of_leadsTo up
    rw [Bool.and_eq_true] at good
    have proxied : conn.proxied := by
      obtain ⟨r, found, direct⟩ := (Option.any_eq_true _ _).mp good.1
      exact ⟨r, found, by simpa using direct⟩
    have reach : (Local.machine Local.salsaConfig).Reach Local.beforeData
        (Local.acceptCb Local.salsaConfig [1, 1, 1, 1, 1, 1, 1, 1]) conn := by
      refine Machine.Reach.of_run .refl ?_ ran
      intro e mem s
      simp only [connectedEvents, Local.pipelinedRequest, List.cons_append, List.nil_append, List.mem_cons,
        List.not_mem_nil, or_false] at mem
      obtain rfl | rfl | rfl := mem <;> exact trivial
    obtain ⟨conn', received, rest⟩ := (onLocal Local.salsaConfig [1, 1, 1, 1, 1, 1, 1, 1] conn rfl reach proxied
      (Option.isSome_iff_ne_none.mp good.2)).mpr long
    exact ⟨conn, conn', ran, received, rest⟩
  · have up : (Tunnel.acceptCb Tunnel.salsaConfig [1, 1, 1, 1, 1, 1, 1, 1] (.immediate true .full) {}).toOption.any (fun start =>
        ((Tunnel.machine Tunnel.salsaConfig).run start (nineAndTwo.map Tunnel.ofDown)).isSome) = true := by decide +kernel
    cases accepted : Tunnel.acceptCb Tunnel.salsaConfig [1, 1, 1, 1, 1, 1, 1, 1] (.immediate true .full) {} with
    | error stop =>
      rw [accepted] at up
      cases up
    | ok start =>
      rw [accepted] at up
      obtain ⟨conn', received, rest⟩ := (onTunnel Tunnel.salsaConfig _ _ _ start start rfl accepted .refl
        (Option.isSome_iff_ne_none.mp up)).mpr long
      exact ⟨start, conn', rfl, received, rest⟩

/-- Three bytes of the IV first: the length of the plain text wraps around to
`2 ^ 64 - 5`, and the process asks for that much memory. -/
theorem client_reception_three :
    (arrivals threeAndEight).flatten = ciphertext salsa [9, 8, 7, 6, 5, 4, 3, 2] [1, 2, 3] ∧
    ∃ conn, (Local.machine Local.salsaConfig).run (Local.acceptCb Local.salsaConfig [1, 1, 1, 1, 1, 1, 1, 1])
        connectedEvents = some (.ok conn) ∧
      ∃ stop, (Local.machine Local.salsaConfig).run conn (threeAndEight.map Local.ofDown) =
        some (.error stop) ∧ stop = .crashed .noMemory := by
  refine ⟨by decide +kernel, ?_⟩
  have up : (Local.machine Local.salsaConfig).leadsTo (Local.acceptCb Local.salsaConfig [1, 1, 1, 1, 1, 1, 1, 1])
      connectedEvents (fun conn => ((Local.machine Local.salsaConfig).run conn (threeAndEight.map Local.ofDown)).any
        (Machine.stopsWith (.crashed .noMemory))) = true := by
    decide +kernel
  obtain ⟨conn, ran, ends⟩ := Machine.exists_of_leadsTo up
  obtain ⟨result, failed, stops⟩ := (Option.any_eq_true _ _).mp ends
  rw [Machine.eq_error_of_stopsWith stops] at failed
  exact ⟨conn, ran, _, failed, rfl⟩

end Shadowsocks

