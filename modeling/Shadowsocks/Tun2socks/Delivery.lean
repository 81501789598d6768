import Shadowsocks.Tun2socks.Table

/-!
# Whose reply is delivered

A datagram from ss-local is taken for a reply to the pair its connection has now, if its
remote address is right. A connection that has been given to another local address of the
same remote address takes late replies for replies to that one.
-/

namespace Shadowsocks.Tun2socks
set_option autoImplicit false
open Lib

/-! ## Datagrams of ss-local -/

theorem readBe16_be16 (x : UInt16) (rest : Bytes) : readBe16 (be16 x.toNat ++ rest) 0 = x := by
  rw [readBe16, List.drop_zero, ofBe16_be16 x.toNat_lt, UInt16.ofNat_toNat]

theorem readBe32_be32 (x : UInt32) (rest : Bytes) : readBe32 (be32 x.toNat ++ rest) 0 = x := by
  have small := x.toNat_lt
  rw [readBe32, List.drop_zero]
  simp only [be32, List.cons_append, List.nil_append, List.drop_succ_cons, List.drop_zero, ofBe16, UInt8.toNat_ofNat']
  rw [← UInt32.toNat_inj, UInt32.toNat_ofNat']
  omega

theorem length_socksUdpHeader (addr : BAddr) :
    (socksUdpHeader addr).length = match addr with | .ipv4 _ => 10 | .ipv6 _ _ => 22 := by
  cases addr <;> simp [socksUdpHeader, be32]

/-- What has been put together comes apart again. -/
theorem parseReply_header (addr : BAddr) (reply : Bytes) :
    State.parseReply (socksUdpHeader addr ++ reply) = some (addr, reply) := by
  cases addr with
  | ipv4 addr =>
    have port : readBe16 (be32 addr.ip.toNat ++ (be16 addr.port.toNat ++ reply)) 4 = addr.port := readBe16_be16 _ _
    simp only [State.parseReply, socksUdpHeader, List.append_assoc, List.cons_append, List.nil_append, List.drop_succ_cons,
      List.drop_zero]
    rw [readBe32_be32, port]
    simp [be32, be16]
  | ipv6 ip port =>
    have len : ip.toList.length = 16 := by simp
    have there : readBe16 (ip.toList ++ (be16 port.toNat ++ reply)) 16 = port := by
      rw [readBe16, List.drop_left' len]
      exact readBe16_be16 _ _
    have whole : Vector.ofFn (fun i : Fin 16 => (ip.toList ++ (be16 port.toNat ++ reply)).getD i.val 0) = ip := by
      ext i hi
      rw [Vector.getElem_ofFn, List.getD_eq_getElem?_getD, List.getElem?_append_left (by omega)]
      simp [hi]
    have rest : (ip.toList ++ (be16 port.toNat ++ reply)).drop 18 = reply := by
      rw [← List.append_assoc, List.drop_left']
      simp
    simp only [State.parseReply, socksUdpHeader, List.append_assoc, List.cons_append, List.nil_append, List.drop_succ_cons,
      List.drop_zero]
    rw [whole, there, rest]
    simp
    omega

/-- A header that has been cut off is no header. -/
theorem parseReply_short (addr : BAddr) (reply : Bytes) {n : Nat} (short : n < (socksUdpHeader addr).length) :
    State.parseReply ((socksUdpHeader addr ++ reply).take n) = none := by
  rw [List.take_append_of_le_length (Nat.le_of_lt short)]
  rw [length_socksUdpHeader] at short
  unfold State.parseReply
  by_cases four : n < 4
  · rw [if_pos (by rw [List.length_take]; omega)]
  · obtain ⟨m, rfl⟩ := Nat.exists_eq_add_of_le' (Nat.le_of_not_lt four)
    cases addr with
    | ipv4 addr =>
      dsimp only at short
      have rest : (be32 addr.ip.toNat ++ be16 addr.port.toNat).length = 6 := rfl
      simp only [socksUdpHeader, List.cons_append, List.nil_append, List.take_succ_cons, List.drop_succ_cons, List.drop_zero]
      simp [rest]
      omega
    | ipv6 ip port =>
      dsimp only at short
      have rest : (ip.toList ++ be16 port.toNat).length = 18 := by simp
      simp only [socksUdpHeader, List.cons_append, List.nil_append, List.take_succ_cons, List.drop_succ_cons, List.drop_zero]
      simp [rest]
      omega

/-! ## Replies -/

/-- A delivered reply is to a submitted request of the very pair it is delivered to. -/
def Delivery.Own (d : Delivery) : Prop := d.request.pair = ⟨d.localAddr, d.remoteAddr⟩ ∧ d.data = d.reply

/-- The packets of a connection that went to its remote address came from its local one. -/
def Connection.Own (con : Connection) : Prop :=
  ∀ p ∈ con.queue ++ con.sent, p.request.pair.remoteAddr = con.conaddr.remoteAddr →
    p.request.pair.localAddr = con.conaddr.localAddr

/-- A packet and its header are no longer than what is free in the ring. A packet that `udp_mtu` has space for always is. -/
def Inside (request : Request) (room : Option Nat) : Prop :=
  ∀ free ∈ room, (socksUdpHeader request.pair.remoteAddr).length + request.data.length ≤ free

/-- A connection is given to another pair only if it has carried no packet from another local
address to the remote address of that pair, no packet is written past the space for it, and no
reply is delivered in part. -/
def Apart (C : Config) (s : State) : Event → Prop
  | .packet request _ room =>
    Inside request room ∧ (s.findConnection request.pair = none → s.numConnections = C.limit →
      ∀ id ∈ s.connectionsList.head?, ∀ con ∈ s.heap.cell id, Connection.Own { con with conaddr := request.pair })
  | .job room => ∀ job ∈ s.jobs.head?, job ≠ .deviceDone → ∀ request ∈ s.deviceBuf, Inside request room
  | .arrive id i reply =>
    ∀ con ∈ s.heap.cell id, ∀ p ∈ con.sent[i]?, p.request.pair.remoteAddr = con.conaddr.remoteAddr →
      (socksUdpHeader con.conaddr.remoteAddr).length ≤ C.udpMtu →
      (socksUdpHeader con.conaddr.remoteAddr).length + reply.length ≤ C.udpMtu
  | .send _ _ => True

instance (con : Connection) : Decidable con.Own := inferInstanceAs (Decidable (∀ p ∈ _, _))

instance (request : Request) (room : Option Nat) : Decidable (Inside request room) := inferInstanceAs (Decidable (∀ free ∈ room, _))

instance (C : Config) (s : State) (e : Event) : Decidable (Apart C s e) :=
  match e with
  | .packet request _ room => inferInstanceAs (Decidable (Inside request room ∧ (_ → _ → ∀ id ∈ s.connectionsList.head?, _)))
  | .arrive id _ _ => inferInstanceAs (Decidable (∀ con ∈ s.heap.cell id, _))
  | .job room => inferInstanceAs (Decidable (∀ job ∈ s.jobs.head?, job ≠ .deviceDone → ∀ request ∈ s.deviceBuf, Inside request room))
  | .send _ _ => inferInstanceAs (Decidable True)

/-- What holds of the packets and the replies in a run with `Apart`. -/
structure Loyal (s : State) : Prop where
  own : ∀ id con, s.heap.cell id = some con → con.Own
  known : ∀ id con, s.heap.cell id = some con → ∀ p ∈ con.queue ++ con.sent, p.request ∈ s.submitted
  buffered : ∀ request, s.deviceBuf = some request → request ∈ s.submitted
  delivered : ∀ d ∈ s.delivered, d.request ∈ s.submitted ∧ d.Own

section
variable {C : Config} {s s' : State} {es : List (ConAddr × Nat)} {id : Nat} {con : Connection} {e : Event}

/-- A packet of the pair of its connection is queued. -/
theorem Loyal.send (loyal : Loyal s) {request : Request} {room : Option Nat} (submitted : request ∈ s.submitted)
    (own : ∀ con, s.heap.cell id = some con → con.conaddr = request.pair)
    (done : s.connectionSend id request room = .ok s') : Loyal s' := by
  obtain ⟨con, here, rfl | ⟨bytes, -, rfl⟩⟩ := connectionSend_cases done
  · exact loyal
  · have pair := own con here
    -- the packets of the connection are the old ones and the new one
    have cell : ∀ j con', (s.heap.modify id fun con => { con with queue := con.queue ++ [⟨request, bytes⟩] }).cell j = some con' →
        s.heap.cell j = some con' ∨ j = id ∧ con' = { con with queue := con.queue ++ [⟨request, bytes⟩] } := by
      intro j con' there
      by_cases same : j = id
      · subst same
        rw [Heap.cell_modify_self, here] at there
        exact .inr ⟨rfl, (Option.some.inj there).symm⟩
      · exact .inl ((Heap.cell_modify_of_ne same).symm.trans there)
    have packets : ∀ p ∈ (con.queue ++ [⟨request, bytes⟩]) ++ con.sent, p ∈ con.queue ++ con.sent ∨ p = ⟨request, bytes⟩ := by
      intro p mem
      simp only [List.mem_append, List.mem_singleton] at mem ⊢
      tauto
    exact {
      own := by
        intro j con' there p mem remote
        rcases cell j con' there with old | ⟨rfl, rfl⟩
        · exact loyal.own j con' old p mem remote
        · rcases packets p mem with old | rfl
          · exact loyal.own _ con here p old remote
          · exact (congrArg ConAddr.localAddr pair).symm
      known := by
        intro j con' there p mem
        rcases cell j con' there with old | ⟨rfl, rfl⟩
        · exact loyal.known j con' old p mem
        · rcases packets p mem with old | rfl
          · exact loyal.known _ con here p old
          · exact submitted
      buffered := loyal.buffered
      delivered := loyal.delivered }

/-- A packet that is submitted keeps the connections loyal. One that is given to another pair has
carried no packet whose reply would be taken for a reply to the new pair: that is what `Apart`
asks for. -/
theorem Loyal.packet (loyal : Loyal s) (holds : Holds C s es) {request : Request} {fails : Option InitStep} {room : Option Nat}
    (submitted : request ∈ s.submitted) (apart : Apart C s (.packet request fails room))
    (placed : Placed C s es request fails room s') : Loyal s' := by
  cases placed with
  | known id mem done =>
    refine Loyal.send (s := s.touched id request.pair) { loyal with } submitted (fun con here => ?_) done
    obtain ⟨con', here', own⟩ := holds.cells _ mem
    cases here'.symm.trans here
    exact own
  | reused old id rest absent full split done =>
    have after : ∀ j con, (s.readdressed id request.pair).heap.cell j = some con →
        s.heap.cell j = some con ∨ j = id ∧ ∃ before, s.heap.cell id = some before ∧ con = { before with conaddr := request.pair } := by
      intro j con there
      change (s.heap.modify id _).cell j = some con at there
      by_cases same : j = id
      · subst same
        rw [Heap.cell_modify_self] at there
        obtain ⟨before, here, rfl⟩ := Option.map_eq_some_iff.mp there
        exact .inr ⟨rfl, before, here, rfl⟩
      · exact .inl ((Heap.cell_modify_of_ne same).symm.trans there)
    have first : id ∈ s.connectionsList.head? := by rw [holds.list, split]; rfl
    have apart := apart.2 (holds.findConnection_none absent) (holds.number.trans full) id first
    refine Loyal.send (s := (s.readdressed id request.pair).touched id request.pair) ?_ submitted (fun con there => ?_) done
    · exact {
        own := by
          intro j con there
          rcases after j con there with old | ⟨rfl, before, here, rfl⟩
          · exact loyal.own j con old
          · exact apart before here
        known := by
          intro j con there
          rcases after j con there with old | ⟨rfl, before, here, rfl⟩
          · exact loyal.known j con old
          · exact loyal.known _ before here
        buffered := loyal.buffered
        delivered := loyal.delivered }
    · change (s.heap.modify id _).cell id = some con at there
      rw [Heap.cell_modify_self] at there
      obtain ⟨before, here, rfl⟩ := Option.map_eq_some_iff.mp there
      rfl
  | created absent space works =>
    have after : ∀ j con, (s.opened request.pair).heap.cell j = some con →
        s.heap.cell j = some con ∨ con = { conaddr := request.pair } := by
      intro j con there
      change (s.heap.new _).cell j = some con at there
      by_cases same : j = s.heap.next
      · subst same
        rw [Heap.cell_new_self] at there
        exact .inr (Option.some.inj there).symm
      · exact .inl ((Heap.cell_new_of_ne same).symm.trans there)
    exact {
      own := by
        intro j con there
        rcases after j con there with old | rfl
        · exact loyal.own j con old
        · intro p mem
          cases mem
      known := by
        intro j con there
        rcases after j con there with old | rfl
        · exact loyal.known j con old
        · intro p mem
          cases mem
      buffered := loyal.buffered
      delivered := loyal.delivered }
  | failed => exact { loyal with }

/-- What `dgram_handler_received` makes of a reply. -/
theorem arrive_cases {i : Nat} {reply : Bytes} (done : s.arrive C id i reply = .ok s') :
    s' = s ∨ ∃ con packet, s.heap.cell id = some con ∧ con.sent[i]? = some packet ∧
      packet.request.pair.remoteAddr = con.conaddr.remoteAddr ∧
      (socksUdpHeader con.conaddr.remoteAddr).length ≤ C.udpMtu ∧
      s' = { s with delivered := s.delivered ++ [⟨con.conaddr.localAddr, con.conaddr.remoteAddr,
        reply.take (C.udpMtu - (socksUdpHeader con.conaddr.remoteAddr).length), packet.request, reply⟩] } := by
  obtain ⟨con, here, done⟩ := bind_eq_ok.mp done
  rw [State.deref_eq_ok] at here
  cases sent : con.sent[i]? with
  | none =>
    simp only [sent] at done
    cases done
    exact .inl rfl
  | some packet =>
    simp only [sent, State.dgramHandlerReceived, State.deref_eq_ok.mpr here, ok_bind] at done
    by_cases whole : (socksUdpHeader packet.request.pair.remoteAddr).length ≤ C.udpMtu
    · rw [List.take_append, List.take_of_length_le whole, parseReply_header] at done
      dsimp only at done
      split at done
      · cases done
        exact .inl rfl
      · rename_i matched
        have same := BAddr.compare_iff.mp (by simpa using matched)
        split at done
        · cases done
          exact .inl rfl
        · cases done
          rw [same] at whole ⊢
          exact .inr ⟨con, packet, here, sent, same, whole, rfl⟩
    · rw [parseReply_short _ _ (Nat.lt_of_not_le whole)] at done
      cases done
      exact .inl rfl

/-- A packet that is read counts as submitted before it is placed. -/
theorem Loyal.deviceRead (loyal : Loyal s) (request : Request) : Loyal (s.deviceRead request) where
  own := loyal.own
  known id con here p mem := List.mem_append_left _ (loyal.known id con here p mem)
  buffered r buffered := by
    cases Option.some.inj buffered
    exact List.mem_append_right _ (List.mem_singleton.mpr rfl)
  delivered d mem := ⟨List.mem_append_left _ (loyal.delivered d mem).1, (loyal.delivered d mem).2⟩

/-- The job of a new connection queues the packet that the connection was made for. -/
theorem Loyal.executeJob (loyal : Loyal s) (sound : Sound C s) {room : Option Nat} (fired : s.executeJob room = .ok s') :
    Loyal s' := by
  obtain ⟨es, holds, scheduled⟩ := sound
  cases scheduled with
  | idle jobs =>
    simp only [State.executeJob, jobs] at fired
    cases fired
    exact loyal
  | done jobs =>
    simp only [State.executeJob, jobs] at fired
    cases fired
    exact { loyal with }
  | first id request jobs deviceBuf own =>
    simp only [State.executeJob, jobs] at fired
    obtain ⟨request', buffered, fired⟩ := bind_eq_ok.mp fired
    cases (deref_eq_ok.mp buffered).symm.trans deviceBuf
    have before : Loyal { s with jobs := [.deviceDone] } := { loyal with }
    refine before.send (loyal.buffered request deviceBuf) (fun con here => ?_) fired
    obtain ⟨con', here', pair⟩ := holds.cells _ own
    cases here'.symm.trans here
    exact pair

/-- When a socket sends, no connection has a packet that it did not have before. -/
theorem Loyal.sendFirst (loyal : Loyal s) {id : Nat} {ok : Bool} (fired : s.sendFirst id ok = .ok s') : Loyal s' := by
  obtain ⟨con, here, fired⟩ := bind_eq_ok.mp fired
  rw [State.deref_eq_ok] at here
  cases waiting : con.queue with
  | nil =>
    simp only [waiting] at fired
    cases fired
    exact loyal
  | cons packet queue =>
    simp only [waiting] at fired
    cases fired
    have after : ∀ j con', (s.heap.modify id fun con =>
          { con with queue, sent := if ok = true then con.sent ++ [packet] else con.sent }).cell j = some con' →
        ∃ before, s.heap.cell j = some before ∧ con'.conaddr = before.conaddr ∧
          ∀ p ∈ con'.queue ++ con'.sent, p ∈ before.queue ++ before.sent := by
      intro j con' there
      by_cases same : j = id
      · subst same
        rw [Heap.cell_modify_self, here] at there
        cases there
        refine ⟨con, here, rfl, fun p mem => ?_⟩
        rw [waiting]
        cases ok <;> simp only [Bool.false_eq_true, if_false, if_true, List.mem_append, List.mem_cons,
          List.not_mem_nil, or_false] at mem ⊢ <;> tauto
      · exact ⟨con', (Heap.cell_modify_of_ne same).symm.trans there, rfl, fun _ mem => mem⟩
    exact {
      own := by
        intro j con' there p mem remote
        obtain ⟨before, here, same, packets⟩ := after j con' there
        rw [same] at remote ⊢
        exact loyal.own j before here p (packets p mem) remote
      known := by
        intro j con' there p mem
        obtain ⟨before, here, -, packets⟩ := after j con' there
        exact loyal.known j before here p (packets p mem)
      buffered := loyal.buffered
      delivered := loyal.delivered }

/-- A reply that is delivered is one to a packet of the pair that the connection has. -/
theorem Loyal.arrive (loyal : Loyal s) {id i : Nat} {reply : Bytes} (apart : Apart C s (.arrive id i reply))
    (fired : s.arrive C id i reply = .ok s') : Loyal s' := by
  rcases arrive_cases fired with rfl | ⟨con, packet, here, sent, remote, fits, rfl⟩
  · exact loyal
  · have mem : packet ∈ con.queue ++ con.sent := List.mem_append_right _ (List.mem_of_getElem? sent)
    have whole := apart con here packet sent remote fits
    refine { loyal with delivered := fun d new => ?_ }
    rcases List.mem_append.mp new with old | last
    · exact loyal.delivered d old
    · rw [List.mem_singleton.mp last]
      refine ⟨loyal.known id con here packet mem, ?_, List.take_of_length_le (by omega)⟩
      rw [← remote, ← loyal.own id con here packet mem remote]

/-- With `Apart` every event keeps the connections loyal. -/
theorem Loyal.fire (loyal : Loyal s) (sound : Sound C s) (on : (machine C).enabled s e = true) (apart : Apart C s e)
    (fired : (machine C).fire s e = .ok s') : Loyal s' := by
  cases e with
  | packet request fails room =>
    obtain ⟨es, holds, -⟩ := sound
    obtain ⟨s'', done, placed⟩ := (holds.read request).placed request fails room
    cases done.symm.trans fired
    exact (loyal.deviceRead request).packet (holds.read request) (List.mem_append_right _ (List.mem_singleton.mpr rfl)) apart placed
  | job room => exact loyal.executeJob sound fired
  | send id ok => exact loyal.sendFirst fired
  | arrive id i reply => exact loyal.arrive apart fired

/-- While connections are given away with `Apart`, every reply is delivered to its own pair. -/
theorem replies_delivered (C : Config) {s : State} (run : (machine C).Reach (Apart C) {} s) :
    ∀ d ∈ s.delivered, d.request ∈ s.submitted ∧ d.Own := by
  have loyal : Sound C s ∧ Loyal s := by
    refine run.invariant (fun s => Sound C s ∧ Loyal s) ⟨sound_start C, nofun, nofun, nofun, nofun⟩ ?_
    rintro s e s' ⟨sound, loyal⟩ on apart fired
    exact ⟨sound.fire on fired, loyal.fire sound on apart fired⟩
  exact loyal.2.delivered

end

/-! ## A late reply -/

/-- A request, its first job and the end of the device's packet; the socket sends it. -/
def demoSent (n : UInt16) : List Event := demoPackets n none ++ [.send 0 true]

theorem replies_delivered_one : ∃ s : State, s.delivered.length = 1 ∧ ∀ d ∈ s.delivered, d.request ∈ s.submitted ∧ d.Own := by
  obtain ⟨s, run, one⟩ := Machine.exists_of_leadsTo (show ((machine demo).restrict fun s e => decide (Apart demo s e)).leadsTo {}
    (demoSent 1 ++ [.arrive 0 0 [2]]) (fun s => decide (s.delivered.length = 1)) = true by decide +kernel)
  exact ⟨s, of_decide_eq_true one, replies_delivered demo (.of_restrict (fun _ _ => of_decide_eq_true) .refl run)⟩

/-- The connection of port 1 is given to port 2, and then the reply to port 1 arrives. -/
theorem replies_misdelivered : ¬ ∀ s, (machine demo).Reach (fun _ _ => True) {} s →
    ∀ d ∈ s.delivered, d.request ∈ s.submitted ∧ d.Own := by
  intro claim
  obtain ⟨s, run, wrong⟩ := Machine.exists_of_leadsTo (show (machine demo).leadsTo {}
    (demoSent 1 ++ [.packet (demoRequest 2) none (some 64), .arrive 0 0 [2]])
    (fun s => s.delivered.any fun d => decide (d.request.pair ≠ ⟨d.localAddr, d.remoteAddr⟩)) = true by decide +kernel)
  obtain ⟨d, mem, other⟩ := List.any_eq_true.mp wrong
  exact of_decide_eq_true other (claim s (.of_run .refl (fun _ _ _ => trivial) run) d mem).2.1

end Shadowsocks.Tun2socks
