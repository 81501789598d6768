import Shadowsocks.Udp.Remote

/-!
# Datagrams given by their headers

Under the method `table` with the identity for its table, the datagram that carries a
header and a payload is known. Runs over such datagrams need no buffers (`plain_reach`).
-/

namespace Shadowsocks.Udp.Remote
set_option autoImplicit false
open Lib

/-- A datagram with the header `h` under the type byte `t`, the end of a query, or an idle
timer. -/
inductive PlainEvent where
  | recv (src : Sockaddr) (t : UInt8) (h : Header) (payload : Bytes) (io : Io)
  | queryResolve (i : Nat) (found : Bool) (io : Io)
  | remoteTimeout (id : Nat)

namespace PlainEvent

/-- The datagram can be written, and fits into the buffer. -/
def Fits : PlainEvent → Prop
  | recv _ t h payload _ => h.Valid ∧ t &&& 0xf = h.addr.atyp ∧ 3 + h.addr.body.length + payload.length ≤ maxUdpPacketSize
  | _ => True

/-- The idle timer. -/
def isTimeout : PlainEvent → Bool
  | remoteTimeout _ => true
  | _ => false

instance (e : PlainEvent) : Decidable e.Fits :=
  match e with
  | recv .. => inferInstanceAs (Decidable (_ ∧ _))
  | queryResolve .. => .isTrue trivial
  | remoteTimeout .. => .isTrue trivial

/-- The event of the relay. -/
def lift : PlainEvent → Event
  | recv src t h payload io => .serverRecv src (t :: (h.addr.body ++ (h.port ++ payload))) (fun _ => 0) io
  | queryResolve i found io => .queryResolve i found io
  | remoteTimeout id => .remoteTimeout id

end PlainEvent

section
variable {P : Platform} (C : Config P)

/-- The relay where datagrams are given by their headers. -/
def plainFire (s : State) (e : PlainEvent) : Except Fault State :=
  if e.Fits then
    match e with
    | .recv src t h payload io =>
      let r := headerRequest C.text t h payload
      route { s with auth := s.auth || t &&& 0x10 != 0, asked := s.asked ++ [(src, r.addrHeader)] } src r io
    | e => fire C s e.lift
  else fire C s e.lift

/-- The machine of these events, where `ok` holds. -/
def plainMachine (ok : State → PlainEvent → Bool) : Machine State PlainEvent Fault where
  enabled s e := enabled C s e.lift && ok s e
  fire := plainFire C

variable {C}

theorem receive_plain (lawful : P.evp.Lawful) (table : C.E.method = .table) (identity : C.E.decTable = id) (auth : Bool)
    (decTmp : Buffer) (stale : Nat → UInt8) {t : UInt8} {h : Header} (payload : Bytes) (valid : h.Valid)
    (typ : t &&& 0xf = h.addr.atyp) (fits : 3 + h.addr.body.length + payload.length ≤ maxUdpPacketSize) :
    receive C auth decTmp stale (t :: (h.addr.body ++ (h.port ++ payload))) =
      .ok (auth || t &&& 0x10 != 0, decTmp, some (headerRequest C.text t h payload)) := by
  have whole : (t :: (h.addr.body ++ (h.port ++ payload))).take maxUdpPacketSize = t :: (h.addr.body ++ (h.port ++ payload)) := by
    refine List.take_of_length_le ?_
    simp only [List.length_cons, List.length_append, valid.2]
    omega
  have opened : openPacket C.E auth ((t :: (h.addr.body ++ (h.port ++ payload))).take maxUdpPacketSize) =
      some (t :: (h.addr.body ++ (h.port ++ payload))) := by
    rw [whole, openPacket, if_pos table, identity, List.map_id]
  obtain ⟨decTmp', received, same⟩ := receive_opened decTmp stale lawful opened (List.cons_ne_nil _ _)
  rw [received, same table, readRequest_header C.text payload valid typ]
  rfl

theorem plain_fire (lawful : P.evp.Lawful) (table : C.E.method = .table) (identity : C.E.decTable = id) (s : State)
    (e : PlainEvent) : plainFire C s e = fire C s e.lift := by
  unfold plainFire
  split
  · rename_i fits
    cases e with
    | recv src t h payload io =>
      obtain ⟨valid, typ, small⟩ := fits
      rw [PlainEvent.lift, fire, serverRecvCb, receive_plain lawful table identity _ _ _ payload valid typ small]
      rfl
    | queryResolve => rfl
    | remoteTimeout => rfl
  · rfl

/-- Runs over datagrams given by their headers are runs of the relay. -/
theorem plain_reach (lawful : P.evp.Lawful) (table : C.E.method = .table) (identity : C.E.decTable = id)
    {allowed : State → Event → Prop} {ok : State → PlainEvent → Bool} (may : ∀ s e, ok s e = true → allowed s e.lift)
    {es : List PlainEvent} {t : State} (run : (plainMachine C ok).run (start C) es = some (.ok t)) :
    (machine C).Reach allowed (start C) t := by
  refine Machine.Reach.of_lifted_run (fun s e on => ?_) (plain_fire lawful table identity) .refl run
  obtain ⟨on, fine⟩ := Bool.and_eq_true_iff.mp on
  exact ⟨on, may s e fine⟩

end

/-! ## A small network -/

/-- A resolver that finds the host `x` at `10.0.0.x`. -/
def demo : Config rc4Platform where
  E := unsortedTable
  text := { ntop4 := id, ntop6 := id, corkIpInit := fun _ => none, pton4 := fun _ => none, pton6 := fun _ => none }
  auth := false
  resolver host port := ⟨.inet (10 :: 0 :: 0 :: host.take 1) port, .inl rfl⟩

/-- A client. -/
def demoClient : Sockaddr := .inet [192, 168, 0, 2] [4, 210]

/-- Its datagram for port 53 of the host `x`. -/
def askFor (x : UInt8) : PlainEvent := .recv demoClient 3 ⟨.domain [x], [0, 53]⟩ [1, 2, 3] {}

end Shadowsocks.Udp.Remote
